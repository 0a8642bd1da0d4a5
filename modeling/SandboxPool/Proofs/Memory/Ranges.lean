import SandboxPool.Proofs.Memory.Blocks

/-!
# Ranges of guest memory

A range that lies inside the memory at its present size can be read and written; any other is
refused by name, and the memory is as before. What a range holds (`Memory.Holds`) and what a write
does to it (`Memory.Rewritten`) are said byte by byte. A guest names a range by signed numbers, of
which the negative ones are refused before the memory is looked at.
-/

namespace SandboxPool

namespace Memory

variable {m m' : Memory} {a i length : Nat} {data : List UInt8}

/-! ## Reading and writing -/

/-- A range in the memory is read. -/
theorem read_of_inside (hinside : a + length ≤ m.size) :
    m.read a length = .ok (m.slice a length) := by
  rw [read, checkRange, if_pos hinside]
  rfl

/-- One that ends beyond it is not, and the refusal tells the range. -/
theorem read_of_beyond (hbeyond : m.size < a + length) :
    m.read a length = refuse (.outOfBounds a length m.size) := by
  rw [read, checkRange, if_neg (Nat.not_le_of_lt hbeyond)]
  rfl

theorem write_of_beyond (hbeyond : m.size < a + data.length) :
    m.write a data = refuse (.outOfBounds a data.length m.size) := by
  rw [write, checkRange, if_neg (Nat.not_le_of_lt hbeyond)]
  rfl

/-- Bytes above what is written stay. -/
theorem get_setAll_above (h : a + data.length ≤ i) : (m.setAll a data).get i = m.get i := by
  induction data generalizing m a with
  | nil => rfl
  | cons b rest ih =>
    rw [List.length_cons] at h
    have hne : ¬ a = i := by omega
    rw [setAll, ih (by omega), get_set, if_neg hne]

/-- A write decides about the bytes of its range and about no others. -/
theorem get_setAll (m : Memory) (a : Nat) (data : List UInt8) (i : Nat) :
    (m.setAll a data).get i =
      if h : a ≤ i ∧ i - a < data.length then data[i - a] else m.get i := by
  by_cases hbelow : i < a
  · rw [get_setAll_below hbelow, dif_neg (by omega)]
  by_cases habove : a + data.length ≤ i
  · rw [get_setAll_above habove, dif_neg (by omega)]
  · have hwithin : i - a < data.length := by omega
    have hshift : a + (i - a) = i := by omega
    rw [dif_pos ⟨by omega, hwithin⟩, ← get_setAll_inside hwithin, hshift]

/-- A memory in which `data` was written from an address on. -/
structure Rewritten (m m' : Memory) (a : Nat) (data : List UInt8) : Prop where
  size : m'.size = m.size
  inside : ∀ i (h : i < data.length), m'.get (a + i) = data[i]
  outside : ∀ i, i < a ∨ a + data.length ≤ i → m'.get i = m.get i

/-- Writing changes the bytes that are written, and no others. -/
theorem rewritten_setAll (m : Memory) (a : Nat) (data : List UInt8) :
    m.Rewritten (m.setAll a data) a data where
  size := size_setAll m a data
  inside _ h := get_setAll_inside h
  outside _ h := h.elim get_setAll_below get_setAll_above

/-! ## What a range holds -/

/-- The bytes `data` lie in the memory from an address on. -/
structure Holds (m : Memory) (a : Nat) (data : List UInt8) : Prop where
  inside : a + data.length ≤ m.size
  bytes : ∀ i (h : i < data.length), m.get (a + i) = data[i]

/-- Data that lies in the memory is what a slice there shows. -/
theorem Holds.slice (hheld : m.Holds a data) : m.slice a data.length = data := by
  apply List.ext_getElem (length_slice m a data.length)
  intro i hi hdata
  simp only [Memory.slice, List.getElem_map, List.getElem_range]
  exact hheld.bytes i hdata

theorem holds_slice (hinside : a + length ≤ m.size) : m.Holds a (m.slice a length) where
  inside := by rw [length_slice]; exact hinside
  bytes i h := by simp only [Memory.slice, List.getElem_map, List.getElem_range]

/-- What is read from a range is what it holds. -/
theorem holds_of_read (hread : m.read a data.length = .ok data) : m.Holds a data := by
  by_cases hinside : a + data.length ≤ m.size
  · rw [read_of_inside hinside] at hread
    rw [← Except.ok.inj hread]
    simpa using holds_slice hinside
  · rw [read_of_beyond (Nat.lt_of_not_le hinside)] at hread
    cases hread

/-- What lies in two ranges one behind the other lies in both together. -/
theorem holds_append {data' : List UInt8} :
    m.Holds a (data ++ data') ↔ m.Holds a data ∧ m.Holds (a + data.length) data' := by
  constructor
  · intro hheld
    have hinside := hheld.inside
    rw [List.length_append] at hinside
    refine ⟨⟨by omega, fun i h => ?_⟩, ⟨by omega, fun i h => ?_⟩⟩
    · rw [hheld.bytes i (by rw [List.length_append]; omega), List.getElem_append_left h]
    · rw [Nat.add_assoc, hheld.bytes (data.length + i) (by rw [List.length_append]; omega),
        List.getElem_append_right (Nat.le_add_right _ _)]
      simp only [Nat.add_sub_cancel_left]
  · rintro ⟨hfirst, hsecond⟩
    have hinside := hsecond.inside
    refine ⟨by rw [List.length_append]; omega, fun i h => ?_⟩
    rw [List.length_append] at h
    -- A byte of the whole is one of the first part or, further on, one of the second.
    by_cases hbefore : i < data.length
    · rw [List.getElem_append_left hbefore, hfirst.bytes i hbefore]
    · have hshift : a + data.length + (i - data.length) = a + i := by omega
      rw [List.getElem_append_right (Nat.le_of_not_lt hbefore), ← hsecond.bytes _ (by omega),
        hshift]

/-- A slice may be taken in two pieces. -/
theorem slice_add (m : Memory) (a n k : Nat) :
    m.slice a (n + k) = m.slice a n ++ m.slice (a + n) k := by
  simp [Memory.slice, List.range_add, Function.comp_def, Nat.add_assoc]

end Memory

/-- Either the block that `data` needs ends beyond the reach of a pointer, or `data` lies in it. -/
theorem Heap.store_cases (h : Heap) (data : List UInt8) :
    (Heap.lastAddress < Heap.roundUp 8 h.next + data.length ∧ ∃ e, h.store data = .error e) ∨
    ∃ h', h.store data = .ok (Heap.roundUp 8 h.next, h') ∧
      Heap.roundUp 8 h.next + data.length ≤ Heap.lastAddress ∧
      h'.memory.Holds (Heap.roundUp 8 h.next) data := by
  rcases Heap.alloc_cases h data.length with ⟨hbeyond, hrefused⟩ | ⟨h', hgiven, hfits⟩
  · exact .inl ⟨hbeyond, _, by rw [Heap.store, hrefused]; rfl⟩
  · have hinside := (Heap.alloc_inside hgiven).2
    refine .inr ⟨{ h' with memory := h'.memory.setAll (Heap.roundUp 8 h.next) data }, ?_, hfits,
      Memory.holds_of_read (Memory.read_setAll hinside)⟩
    simp only [Heap.store, hgiven, Heap.write, Memory.write_of_fits hinside, bind, Except.bind]
    rfl

/-! ## Numbers from the guest -/

/-- A signed number is a natural number or negative. -/
theorem natural_or_negative (p : Int32) : (∃ a : Nat, p.toInt = a) ∨ p.toInt < 0 := by
  rcases Int.lt_or_le p.toInt 0 with hnegative | hnonneg
  · exact .inr hnegative
  · exact .inl (Int.eq_ofNat_of_zero_le hnonneg)

theorem guestNat_of_natural {p : Int32} {a : Nat} (hnames : p.toInt = a) (argument : String) :
    guestNat p argument = .ok a := by
  have hnonneg : 0 ≤ p := by
    rw [Int32.le_iff_toInt_le, hnames]
    exact Int.natCast_nonneg a
  have hnumber : p.toNatClampNeg = a := by rw [Int32.toNatClampNeg, hnames, Int.toNat_natCast]
  rw [guestNat, if_pos hnonneg, hnumber]

/-- A pointer that is negative is refused before it is used. -/
theorem guestNat_of_negative {p : Int32} (hnegative : p.toInt < 0) (argument : String) :
    guestNat p argument = refuse (.badArgument argument (toString p ++ " is negative")) := by
  have hbelow : ¬ 0 ≤ p := by
    rw [Int32.le_iff_toInt_le]
    exact Int.not_le.mpr hnegative
  rw [guestNat, if_neg hbelow]

namespace Memory

variable {m : Memory} {p length : Int32} {a n : Nat}

/-- A guest reads as the memory is read. -/
theorem guestRead_of_natural (hpointer : p.toInt = a) (hnumber : length.toInt = n) :
    m.guestRead p length = m.read a n := by
  simp only [guestRead, guestNat_of_natural hpointer, guestNat_of_natural hnumber, bind,
    Except.bind]

theorem guestWrite_of_natural (hpointer : p.toInt = a) (data : List UInt8) :
    m.guestWrite p data = m.write a data := by
  simp only [guestWrite, guestNat_of_natural hpointer, bind, Except.bind]

/-- A negative pointer is a bad argument, whatever the length is. -/
theorem guestRead_of_negative (hnegative : p.toInt < 0) (length : Int32) :
    m.guestRead p length = refuse (.badArgument "ptr" (toString p ++ " is negative")) := by
  rw [guestRead, guestNat_of_negative hnegative]
  rfl

theorem guestWrite_of_negative (hnegative : p.toInt < 0) (data : List UInt8) :
    m.guestWrite p data = refuse (.badArgument "ptr" (toString p ++ " is negative")) := by
  rw [guestWrite, guestNat_of_negative hnegative]
  rfl

/-- The pointer is looked at before the length. -/
theorem guestRead_of_negative_length (hpointer : p.toInt = a) (hnegative : length.toInt < 0) :
    m.guestRead p length = refuse (.badArgument "len" (toString length ++ " is negative")) := by
  rw [guestRead, guestNat_of_natural hpointer, guestNat_of_negative hnegative]
  rfl

end Memory
end SandboxPool
