import Mathlib.Order.Bounds.Defs
import SandboxPool.Proofs.Memory.Ranges

/-!
# What a memory with an allocator remembers

A guest's memory is asked for blocks, for more pages, to be read and to be written. Whatever it is
asked, in whatever order, it keeps two promises (`Heap.Sound`). The blocks that it has given are
aligned, lie inside the memory and within reach of a pointer, and no two of them overlap. And it
holds at each address the byte that was written there last, or 0 (`Heap.latest`), however often it
has grown in between. The address of the next block follows from the blocks that were given alone.
-/

namespace SandboxPool
namespace Heap

/-- What a memory may be asked for. -/
inductive Request where
  | alloc (length : Nat)
  | grow (pages : Nat)
  | read (offset length : Nat)
  | write (offset : Nat) (data : List UInt8)
  deriving Repr, DecidableEq

/-- What a memory answers. -/
inductive Answer where
  | given (start : Nat)
  | grown (size : Nat)
  | found (data : List UInt8)
  | written
  | failed (e : Failure)

/-- Answers a request. -/
def serve (h : Heap) : Request → Answer × Heap
  | .alloc length =>
    match h.alloc length with
    | .ok (start, h') => (.given start, h')
    | .error e => (.failed e, h)
  | .grow pages => (.grown (h.grow pages).size, h.grow pages)
  | .read offset length =>
    match h.read offset length with
    | .ok data => (.found data, h)
    | .error e => (.failed e, h)
  | .write offset data =>
    match h.write offset data with
    | .ok h' => (.written, h')
    | .error e => (.failed e, h)

/-! ## The past of a memory -/

/-- A block that was given. -/
structure Block where
  start : Nat
  length : Nat
  deriving Repr, DecidableEq

namespace Block

/-- The first address behind a block. -/
def stop (b : Block) : Nat := b.start + b.length

/-- No address is in both blocks. -/
def Apart (b c : Block) : Prop :=
  ∀ a, ¬ (b.start ≤ a ∧ a < b.stop ∧ c.start ≤ a ∧ a < c.stop)

end Block

/-- Something that has been done to a memory. -/
inductive Event where
  | gave (b : Block)
  | wrote (offset : Nat) (data : List UInt8)
  deriving Repr, DecidableEq

/-- What a request with its answer has done to the memory. -/
def Request.event? : Request → Answer → Option Event
  | .alloc length, .given start => some (.gave ⟨start, length⟩)
  | .write offset data, .written => some (.wrote offset data)
  | _, _ => none

/-- The blocks that were given, the latest one first. -/
def blocks : List Event → List Block
  | [] => []
  | .gave b :: earlier => b :: blocks earlier
  | .wrote _ _ :: earlier => blocks earlier

/-- The byte that was written last at an address, or 0. The latest event comes first. -/
def latest (a : Nat) : List Event → UInt8
  | [] => 0
  | .gave _ :: earlier => latest a earlier
  | .wrote offset data :: earlier =>
    if h : offset ≤ a ∧ a - offset < data.length then data[a - offset] else latest a earlier

/-- What requests make of a fresh memory, the latest of them first: everything that was done to it,
the latest event first, and what it is now. -/
def replay (pages : Nat) : List Request → List Event × Heap
  | [] => ([], ofPages pages)
  | r :: earlier =>
    let (past, h) := replay pages earlier
    let (answer, h') := h.serve r
    ((r.event? answer).toList ++ past, h')

/-- The addresses where a block may start after `past`. -/
def Open (past : List Event) : Set Nat :=
  {a | 8 ∣ a ∧ 16 ≤ a ∧ ∀ b ∈ blocks past, b.stop ≤ a}

/-- What is true of a memory after `past`. -/
structure Sound (past : List Event) (h : Heap) : Prop where
  aligned : ∀ b ∈ blocks past, 8 ∣ b.start
  above : ∀ b ∈ blocks past, 16 ≤ b.start
  reachable : ∀ b ∈ blocks past, b.stop ≤ 0x7fffffff
  inside : ∀ b ∈ blocks past, b.stop ≤ h.size
  apart : (blocks past).Pairwise Block.Apart
  pages : 65536 ∣ h.size
  /-- A block starts at the first open address, unless no pointer could reach its end. -/
  alloc : ∃ free, IsLeast (Open past) free ∧ ∀ length, (h.serve (.alloc length)).1 =
    if 0x7fffffff < free + length then .failed (Cause.outOfBounds free length h.size)
    else .given free
  grow : ∀ pages, (h.serve (.grow pages)).1 = .grown (h.size + pages * 65536)
  /-- What is read is what was written last. -/
  read : ∀ offset length, (h.serve (.read offset length)).1 =
    if h.size < offset + length then .failed (Cause.outOfBounds offset length h.size)
    else .found ((List.range length).map fun i => latest (offset + i) past)
  write : ∀ offset data, (h.serve (.write offset data)).1 =
    if h.size < offset + data.length then .failed (Cause.outOfBounds offset data.length h.size)
    else .written
  /-- Only a write changes bytes that are there. -/
  kept : ∀ r, (∀ offset data, r ≠ .write offset data) → ∀ a < h.size,
    (h.serve r).2.memory.get a = h.memory.get a
  /-- No request makes the memory smaller. -/
  grows : ∀ r, h.size ≤ (h.serve r).2.size
  failed : ∀ r e, (h.serve r).1 = .failed e → (h.serve r).2 = h

variable {h h' : Heap} {past : List Event} {a b : Nat}

/-! ## One request -/

theorem size_grow (h : Heap) (pages : Nat) :
    (h.grow pages).size = h.size + pages * pageSize := by
  rw [grow, size, Memory.resize, size]

/-- No multiple of eight is nearer. -/
theorem roundUp_le {n : Nat} (hmultiple : 8 ∣ a) (hreached : n ≤ a) : roundUp 8 n ≤ a := by
  unfold roundUp
  omega

/-- What a request does to a memory: it gives a block, adds pages, writes inside the memory, or
leaves it as it is. -/
theorem serve_cases (h : Heap) (r : Request) :
    (∃ length h', r = .alloc length ∧ h.alloc length = .ok (roundUp 8 h.next, h') ∧
      h.serve r = (.given (roundUp 8 h.next), h')) ∨
    (∃ pages, r = .grow pages ∧ h.serve r = (.grown (h.grow pages).size, h.grow pages)) ∨
    (∃ offset data, r = .write offset data ∧ h.serve r =
      (.written, { h with memory := h.memory.setAll offset data })) ∨
    ∃ answer, r.event? answer = none ∧ h.serve r = (answer, h) := by
  cases r with
  | alloc length =>
    rcases alloc_cases h length with ⟨-, hrefused⟩ | ⟨h', hgiven, -⟩
    · exact .inr (.inr (.inr ⟨_, rfl, by rw [serve, hrefused]; rfl⟩))
    · exact .inl ⟨length, h', rfl, hgiven, by rw [serve, hgiven]⟩
  | grow pages => exact .inr (.inl ⟨pages, rfl, rfl⟩)
  | read offset length =>
    refine .inr (.inr (.inr ?_))
    cases hfound : h.read offset length with
    | ok data => exact ⟨.found data, rfl, by rw [serve, hfound]⟩
    | error e => exact ⟨.failed e, rfl, by rw [serve, hfound]⟩
  -- A write that does not fit leaves the heap alone, so it is no event either.
  | write offset data =>
    refine .inr (.inr ?_)
    by_cases hinside : offset + data.length ≤ h.memory.size
    · refine .inl ⟨offset, data, rfl, ?_⟩
      rw [serve, write, Memory.write_of_fits hinside]
      rfl
    · refine .inr ⟨.failed (Cause.outOfBounds offset data.length h.memory.size), rfl, ?_⟩
      rw [serve, write, Memory.write_of_beyond (Nat.lt_of_not_le hinside)]
      rfl

/-- A block is given if its end is within the reach of a pointer, however large the memory is. -/
theorem serve_alloc (h : Heap) (length : Nat) : (h.serve (.alloc length)).1 =
    if 0x7fffffff < roundUp 8 h.next + length then
      .failed (Cause.outOfBounds (roundUp 8 h.next) length h.size)
    else .given (roundUp 8 h.next) := by
  rcases alloc_cases h length with ⟨hbeyond, hrefused⟩ | ⟨h', hgiven, hfits⟩
  · have hbeyond : 0x7fffffff < roundUp 8 h.next + length := hbeyond
    rw [serve, hrefused, if_pos hbeyond]
    rfl
  · have hfits : ¬ 0x7fffffff < roundUp 8 h.next + length := Nat.not_lt_of_le hfits
    rw [serve, hgiven, if_neg hfits]

/-- A range is read if it lies in the memory. -/
theorem serve_read (h : Heap) (offset length : Nat) : (h.serve (.read offset length)).1 =
    if h.size < offset + length then .failed (Cause.outOfBounds offset length h.size)
    else .found (h.memory.slice offset length) := by
  by_cases hbeyond : h.size < offset + length
  · rw [serve, read, Memory.read_of_beyond hbeyond, if_pos hbeyond]
    rfl
  · rw [serve, read, Memory.read_of_inside (Nat.le_of_not_lt hbeyond), if_neg hbeyond]

/-- A range is written if it lies in the memory. -/
theorem serve_write (h : Heap) (offset : Nat) (data : List UInt8) :
    (h.serve (.write offset data)).1 =
      if h.size < offset + data.length then .failed (Cause.outOfBounds offset data.length h.size)
      else .written := by
  by_cases hbeyond : h.size < offset + data.length
  · rw [serve, write, Memory.write_of_beyond hbeyond, if_pos hbeyond]
    rfl
  · rw [serve, write, Memory.write_of_fits (Nat.le_of_not_lt hbeyond), if_neg hbeyond]
    rfl

/-- A request that is no write keeps every byte. -/
theorem serve_get {r : Request} (hnoWrite : ∀ offset data, r ≠ .write offset data) :
    (h.serve r).2.memory.get = h.memory.get := by
  rcases serve_cases h r with ⟨length, h', -, hgiven, hsame⟩ | ⟨pages, -, hsame⟩ |
    ⟨offset, data, rfl, -⟩ | ⟨answer, -, hsame⟩
  · rw [hsame]
    exact (alloc_grown hgiven).2.2.2
  · rw [hsame]
    exact Memory.get_resize _ _
  · exact absurd rfl (hnoWrite offset data)
  · rw [hsame]

/-- No request makes the memory smaller. -/
theorem size_le_serve (h : Heap) (r : Request) : h.size ≤ (h.serve r).2.size := by
  rcases serve_cases h r with ⟨length, h', -, hgiven, hsame⟩ | ⟨pages, -, hsame⟩ |
    ⟨offset, data, -, hsame⟩ | ⟨answer, -, hsame⟩
  · rw [hsame]
    exact (alloc_grown hgiven).2.1
  · rw [hsame, size_grow]
    exact Nat.le_add_right _ _
  · rw [hsame]
    exact Nat.le_of_eq (Memory.size_setAll _ _ _).symm
  · exact Nat.le_of_eq (congrArg (·.2.size) hsame).symm

/-- A request that fails leaves the heap as it was. -/
theorem serve_failed {r : Request} {e : Failure} (hfailed : (h.serve r).1 = .failed e) :
    (h.serve r).2 = h := by
  rcases serve_cases h r with ⟨length, h', -, -, hsame⟩ | ⟨pages, -, hsame⟩ |
    ⟨offset, data, -, hsame⟩ | ⟨answer, -, hsame⟩ <;> rw [hsame] at hfailed ⊢
  · cases hfailed
  · cases hfailed
  · cases hfailed

/-! ## All requests -/

/-- What is remembered of a memory. The blocks reach as far as the allocator's own mark, and not
beyond. -/
structure Accounted (past : List Event) (h : Heap) : Prop where
  base : 16 ≤ h.next
  below : ∀ b ∈ blocks past, b.stop ≤ h.next
  reached : h.next = 16 ∨ ∃ b ∈ blocks past, b.stop = h.next
  placed : ∀ b ∈ blocks past, 8 ∣ b.start ∧ 16 ≤ b.start ∧ b.stop ≤ lastAddress ∧ b.stop ≤ h.size
  apart : (blocks past).Pairwise Block.Apart
  pages : pageSize ∣ h.size
  bytes : ∀ a, h.memory.get a = latest a past

/-- The next block is behind all the others. -/
theorem Accounted.alloc {length : Nat} (hknown : Accounted past h)
    (hgiven : h.alloc length = .ok (roundUp 8 h.next, h')) :
    Accounted (.gave ⟨roundUp 8 h.next, length⟩ :: past) h' := by
  obtain ⟨hnext, hlarger, hpages, hbytes⟩ := alloc_grown hgiven
  obtain ⟨hlast, hinside⟩ := alloc_inside hgiven
  have hroom : h.next ≤ roundUp 8 h.next := le_roundUp (by decide) _
  have hbase := hknown.base
  refine ⟨by omega, ?_, .inr ⟨_, List.mem_cons_self, hnext.symm⟩, ?_, ?_, hpages hknown.pages, ?_⟩
  · intro b hgiven
    rcases List.mem_cons.mp hgiven with rfl | hearlier
    · exact Nat.le_of_eq hnext.symm
    · have hbelow := hknown.below b hearlier
      omega
  · intro b hgiven
    rcases List.mem_cons.mp hgiven with rfl | hearlier
    · exact ⟨dvd_roundUp 8 _, by show 16 ≤ roundUp 8 h.next; omega, hlast, hinside⟩
    · obtain ⟨haligned, habove, hreachable, hwithin⟩ := hknown.placed b hearlier
      exact ⟨haligned, habove, hreachable, Nat.le_trans hwithin hlarger⟩
  · -- all the earlier blocks end at the mark or below it
    refine List.pairwise_cons.mpr ⟨?_, hknown.apart⟩
    rintro b hearlier a ⟨hafter, -, -, hbefore⟩
    have hbelow := hknown.below b hearlier
    have hafter : roundUp 8 h.next ≤ a := hafter
    omega
  · intro a
    rw [hbytes]
    exact hknown.bytes a

/-- The blocks stay where they are while the memory becomes another one that is no smaller. -/
theorem Accounted.replaced {memory : Memory} {past' : List Event} (hknown : Accounted past h)
    (hsame : blocks past' = blocks past) (hlarger : h.size ≤ memory.size)
    (hwhole : pageSize ∣ memory.size) (hbytes : ∀ a, memory.get a = latest a past') :
    Accounted past' { h with memory } where
  base := hknown.base
  below := by
    rw [hsame]
    exact hknown.below
  reached := by
    rw [hsame]
    exact hknown.reached
  placed b hgiven := by
    rw [hsame] at hgiven
    obtain ⟨haligned, habove, hreachable, hinside⟩ := hknown.placed b hgiven
    exact ⟨haligned, habove, hreachable, Nat.le_trans hinside hlarger⟩
  apart := by
    rw [hsame]
    exact hknown.apart
  pages := hwhole
  bytes := hbytes

theorem Accounted.grow (hknown : Accounted past h) (pages : Nat) :
    Accounted past (h.grow pages) := by
  refine hknown.replaced rfl (Nat.le_add_right _ _) ?_ ?_
  · exact Nat.dvd_add hknown.pages (Nat.dvd_mul_left _ _)
  · rw [Memory.get_resize]
    exact hknown.bytes

/-- Writing is one more thing that is known of the memory. -/
theorem Accounted.write (hknown : Accounted past h) (offset : Nat) (data : List UInt8) :
    Accounted (.wrote offset data :: past)
      { h with memory := h.memory.setAll offset data } := by
  have hsize := Memory.size_setAll h.memory offset data
  refine hknown.replaced rfl (Nat.le_of_eq hsize.symm) ?_ fun a => ?_
  · rw [hsize]
    exact hknown.pages
  · rw [Memory.get_setAll, latest, hknown.bytes]

/-- What a request does is remembered. -/
theorem Accounted.serve (hknown : Accounted past h) (r : Request) :
    Accounted ((r.event? (h.serve r).1).toList ++ past) (h.serve r).2 := by
  rcases serve_cases h r with ⟨length, h', rfl, hgiven, hsame⟩ | ⟨pages, rfl, hsame⟩ |
    ⟨offset, data, rfl, hsame⟩ | ⟨answer, hnothing, hsame⟩ <;> rw [hsame]
  · exact hknown.alloc hgiven
  · exact hknown.grow pages
  · exact hknown.write offset data
  · rw [hnothing]
    exact hknown

/-- What was done to a heap accounts for it, whatever that was. -/
theorem replay_accounted (pages : Nat) (requests : List Request) :
    Accounted (replay pages requests).1 (replay pages requests).2 := by
  induction requests with
  | nil =>
    refine ⟨Nat.le_refl _, nofun, .inl rfl, nofun, .nil, Nat.dvd_mul_left _ _, fun a => ?_⟩
    show (∅ : Std.TreeMap Nat UInt8).getD a 0 = 0
    simp
  | cons r earlier hknown => exact hknown.serve r

/-- The first open address is the next multiple of eight. -/
theorem Accounted.isLeast_open (hknown : Accounted past h) :
    IsLeast (Open past) (roundUp 8 h.next) := by
  have hroom : h.next ≤ roundUp 8 h.next := le_roundUp (by decide) _
  refine ⟨⟨dvd_roundUp 8 _, Nat.le_trans hknown.base hroom,
    fun b hgiven => Nat.le_trans (hknown.below b hgiven) hroom⟩, ?_⟩
  rintro a ⟨haligned, habove, hbehind⟩
  refine roundUp_le haligned ?_
  -- the mark is where the first block may begin, or where one ends
  rcases hknown.reached with hstart | ⟨b, hgiven, hstop⟩
  · rw [hstart]
    exact habove
  · rw [← hstop]
    exact hbehind b hgiven

/-- Where the past accounts for the heap, blocks and reads are as they should be. -/
theorem Accounted.sound (hknown : Accounted past h) : Sound past h where
  aligned b hgiven := (hknown.placed b hgiven).1
  above b hgiven := (hknown.placed b hgiven).2.1
  reachable b hgiven := (hknown.placed b hgiven).2.2.1
  inside b hgiven := (hknown.placed b hgiven).2.2.2
  apart := hknown.apart
  pages := hknown.pages
  alloc := ⟨_, hknown.isLeast_open, serve_alloc h⟩
  grow pages := congrArg Answer.grown (size_grow h pages)
  read offset length := by
    have hbytes : h.memory.slice offset length =
        (List.range length).map fun i => latest (offset + i) past :=
      List.map_congr_left fun i _ => hknown.bytes (offset + i)
    rw [serve_read, hbytes]
  write := serve_write h
  kept r hnoWrite a _ := congrFun (serve_get hnoWrite) a
  grows := size_le_serve h
  failed _ _ := serve_failed

/-- Whatever a memory of any number of pages was asked, its blocks are aligned, inside the memory,
within reach of a pointer and apart from each other, every byte is the one that was written last,
and an answer follows from what was asked before. No request that comes later makes the memory
smaller. -/
theorem replay_sound (pages : Nat) (requests : List Request) :
    Sound (replay pages requests).1 (replay pages requests).2 ∧
      ∀ later, (replay pages requests).2.size ≤ (replay pages (later ++ requests)).2.size := by
  refine ⟨(replay_accounted pages requests).sound, fun later => ?_⟩
  induction later with
  | nil => exact Nat.le_refl _
  | cons r later ih => exact Nat.le_trans ih (size_le_serve _ r)

/-- A memory without pages grows for its first block, and the second one begins at the next
multiple of eight. What was written is between the two. -/
example : (replay 0 [.alloc 3, .write 26 [7], .alloc 10]).1 =
    [.gave ⟨32, 3⟩, .wrote 26 [7], .gave ⟨16, 10⟩] := by
  cbv

end Heap
end SandboxPool
