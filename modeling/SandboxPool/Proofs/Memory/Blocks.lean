import SandboxPool.Memory.Access
import SandboxPool.Memory.Heap

/-!
# Blocks of guest memory

Bytes that were written to a range are read back from it, and a fresh block lies inside the memory
and below the last address a guest pointer can hold, so that what was stored in it can be found
again through the pointer.
-/

namespace SandboxPool

namespace Memory

variable {m : Memory} {a i : Nat} {data : List UInt8}

/-- Bytes below what is written stay. -/
theorem get_setAll_below (h : i < a) : (m.setAll a data).get i = m.get i := by
  induction data generalizing m a with
  | nil => rfl
  | cons b rest ih =>
    have hne : ¬ a = i := by omega
    rw [setAll, ih (by omega), get_set, if_neg hne]

/-- Bytes that are written are there. -/
theorem get_setAll_inside (h : i < data.length) : (m.setAll a data).get (a + i) = data[i] := by
  induction data generalizing m a i with
  | nil => exact absurd h (Nat.not_lt_zero i)
  | cons b rest ih =>
    rw [setAll]
    cases i with
    | zero =>
      rw [get_setAll_below (by omega), get_set, if_pos (by omega)]
      rfl
    | succ i =>
      have hshift : a + (i + 1) = a + 1 + i := by omega
      rw [hshift, ih (Nat.lt_of_succ_lt_succ h)]
      rfl

/-- What was written to a range is in it. -/
theorem slice_setAll (m : Memory) (a : Nat) (data : List UInt8) :
    (m.setAll a data).slice a data.length = data := by
  apply List.ext_getElem
  · exact length_slice _ _ _
  · intro i hi hdata
    simp only [slice, List.getElem_map, List.getElem_range]
    exact get_setAll_inside hdata

/-- Another size changes no byte. The size is a variable here, so that nothing is computed. -/
theorem get_resize (m : Memory) (size : Nat) : (m.resize size).get = m.get := rfl

theorem write_of_fits (h : a + data.length ≤ m.size) : m.write a data = .ok (m.setAll a data) := by
  rw [write, checkRange, if_pos h]
  rfl

/-- What was written is read back. -/
theorem read_setAll (h : a + data.length ≤ m.size) :
    (m.setAll a data).read a data.length = .ok data := by
  rw [read, checkRange, size_setAll, if_pos h]
  show Except.ok ((m.setAll a data).slice a data.length) = _
  rw [slice_setAll]

end Memory

namespace Heap

variable {h h' : Heap} {start length : Nat} {data : List UInt8}

/-- Rounding up does not round down. -/
theorem le_roundUp {step : Nat} (hstep : 0 < step) (n : Nat) : n ≤ roundUp step n := by
  have hdiv := Nat.div_add_mod (n + step - 1) step
  have hmod := Nat.mod_lt (n + step - 1) hstep
  rw [roundUp, Nat.mul_comm]
  omega

theorem dvd_roundUp (step n : Nat) : step ∣ roundUp step n :=
  Nat.dvd_mul_left step _

/-- A fresh block lies inside the memory, below the last address. -/
theorem alloc_inside (halloc : h.alloc length = .ok (start, h')) :
    start + length ≤ lastAddress ∧ start + length ≤ h'.memory.size := by
  unfold alloc at halloc
  dsimp only at halloc
  split at halloc
  · next hfits =>
    obtain ⟨rfl, rfl⟩ := Prod.mk.inj (Except.ok.inj halloc)
    refine ⟨hfits, ?_⟩
    -- a memory that was too small has grown by whole pages
    split
    · exact le_roundUp (by decide) _
    · next hroom => exact Nat.le_of_not_lt hroom
  · cases halloc

/-- Either a pointer can reach the end of a block behind those that were given, or none can and the
block is refused. -/
theorem alloc_cases (h : Heap) (length : Nat) :
    (lastAddress < roundUp 8 h.next + length ∧
      h.alloc length = refuse (.outOfBounds (roundUp 8 h.next) length h.size)) ∨
    ∃ h', h.alloc length = .ok (roundUp 8 h.next, h') ∧
      roundUp 8 h.next + length ≤ lastAddress := by
  unfold alloc
  dsimp only
  split
  · next hfits => exact .inr ⟨_, rfl, hfits⟩
  · next hbeyond => exact .inl ⟨Nat.lt_of_not_le hbeyond, rfl⟩

/-- A memory that gives a block grows by whole pages if it has to, and keeps its bytes. -/
theorem alloc_grown (halloc : h.alloc length = .ok (start, h')) :
    h'.next = start + length ∧ h.size ≤ h'.size ∧ (pageSize ∣ h.size → pageSize ∣ h'.size) ∧
      h'.memory.get = h.memory.get := by
  unfold alloc at halloc
  dsimp only at halloc
  split at halloc
  · obtain ⟨rfl, rfl⟩ := Prod.mk.inj (Except.ok.inj halloc)
    unfold size
    dsimp only
    split
    · next hsmall =>
      have hpages := le_roundUp (show 0 < pageSize by decide) (roundUp 8 h.next + length)
      exact ⟨rfl, Nat.le_trans (Nat.le_of_lt hsmall) hpages,
        fun _ => dvd_roundUp pageSize _, Memory.get_resize _ _⟩
    · exact ⟨rfl, Nat.le_refl _, id, rfl⟩
  · cases halloc

end Heap

/-! ## Addresses as guest pointers -/

/-- A number that a guest pointer can hold is the number that the pointer stands for. -/
theorem toInt_ofNat {n : Nat} (h : n ≤ Heap.lastAddress) : (Int32.ofNat n).toInt = n := by
  apply Int32.toInt_ofNat_of_lt
  unfold Heap.lastAddress at h
  omega

/-- A pointer within reach stands for its address. -/
theorem toNatClampNeg_ofNat {n : Nat} (h : n ≤ Heap.lastAddress) :
    (Int32.ofNat n).toNatClampNeg = n := by
  rw [Int32.toNatClampNeg, toInt_ofNat h, Int.toNat_natCast]

theorem nonneg_ofNat {n : Nat} (h : n ≤ Heap.lastAddress) : 0 ≤ Int32.ofNat n := by
  rw [Int32.le_iff_toInt_le, toInt_ofNat h]
  exact Int.natCast_nonneg n

end SandboxPool
