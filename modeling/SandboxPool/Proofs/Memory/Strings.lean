import Mathlib.Data.List.TakeWhile
import Mathlib.Data.Nat.Find
import SandboxPool.Proofs.Guest.Interop
import SandboxPool.Proofs.Text.Utf16

/-!
# Strings in guest memory are found where they are

For either layout there is a statement of what it means that a string is at an address
(`StringLayout.CountedAt`, `StringLayout.TerminatedAt`), and a list of the reasons why there is none
at a pointer (`StringLayout.CountedRefused`, `StringLayout.TerminatedRefused`). Reading yields a
string exactly where it is and fails for the first reason otherwise (`StringLayout.Reads`), and what
a guest has laid out is read back at the pointer that it got (`StringLayout.Stores`).
-/

namespace SandboxPool

/-- The number in the four bytes from an address on, low byte first. -/
def Memory.word (m : Memory) (a : Nat) : Nat :=
  (m.get a).toNat + 256 * (m.get (a + 1)).toNat + 65536 * (m.get (a + 2)).toNat +
    16777216 * (m.get (a + 3)).toNat

namespace StringLayout

open Text

/-! ## Reading and laying out, for either layout -/

/-- An outcome is decided by what it shall be a success and what a failure for, if one of these
always applies. -/
theorem outcome_decided {α : Type} {r : Outcome α} {Success : α → Prop} {Refusal : Failure → Prop}
    (hsuccess : ∀ a, Success a → r = .ok a) (hrefusal : ∀ e, Refusal e → r = .error e)
    (heither : (∃ e, Refusal e) ∨ ∃ a, Success a) :
    (∀ a, r = .ok a ↔ Success a) ∧ ∀ e, r = .error e ↔ Refusal e := by
  refine ⟨fun a => ⟨fun hfound => ?_, hsuccess a⟩, fun e => ⟨fun hfailed => ?_, hrefusal e⟩⟩
  · rcases heither with ⟨e, hrefused⟩ | ⟨b, hsucceeded⟩
    · cases hfound.symm.trans (hrefusal e hrefused)
    · cases hfound.symm.trans (hsuccess b hsucceeded)
      exact hsucceeded
  · rcases heither with ⟨e', hrefused⟩ | ⟨a, hsucceeded⟩
    · cases hfailed.symm.trans (hrefusal e' hrefused)
      exact hrefused
    · cases hfailed.symm.trans (hsuccess a hsucceeded)

/-- How reading at a pointer ends, where a string may be `There` at an address, or be `Refused`, and
some of it may lie `Beyond` the memory. -/
structure Reads (There : Nat → String → Prop) (Refused : Failure → Prop) (Beyond : Prop)
    (p : Int32) (result : Outcome String) : Prop where
  /-- It yields a string just when that string is there. -/
  succeeds : ∀ s, result = .ok s ↔ ∃ a : Nat, p.toInt = a ∧ There a s
  /-- It fails for the first reason that there is. -/
  fails : ∀ e, result = .error e ↔ Refused e
  bounds : (∃ e, result = .error e ∧ e.kind = .bounds) ↔ Beyond
  others : ∀ e, result = .error e → e.kind ≠ .bounds → e.kind = .argument

/-- How laying a string out ends for a guest `g`, in a block of `length` bytes with the pointer
`into` bytes behind its start. -/
structure Stores (layout : StringLayout) (s : String) (g : GuestState) (length into : Nat)
    (result : Except Stop Int32) (after : GuestState) : Prop where
  /-- It succeeds just when a pointer can reach the end of the block. -/
  succeeds : (∃ p, result = .ok p) ↔
    Heap.roundUp 8 g.heap.next + length ≤ Heap.lastAddress
  /-- The pointer is the address, and not another one for an overflow. -/
  pointer : ∀ p, result = .ok p → p.toInt = Heap.roundUp 8 g.heap.next + into
  /-- The string is read back. -/
  back : ∀ p, result = .ok p → decode layout after.heap.memory p = .ok s

section

variable {There : Nat → String → Prop} {Refused : Failure → Prop} {Beyond : Prop} {p : Int32}
  {result : Outcome String} {layout : StringLayout} {s : String} {g : GuestState}
  {length into : Nat}

/-- A result is as it should be if what is there and what is refused decide it, and the refusals are
of the right kinds. -/
theorem Reads.of_decided (hsuccess : ∀ (a : Nat) s, p.toInt = a → There a s → result = .ok s)
    (hrefusal : ∀ e, Refused e → result = .error e)
    (heither : (∃ e, Refused e) ∨ ∃ s, ∃ a : Nat, p.toInt = a ∧ There a s)
    (hkind : ∀ e, Refused e → e.kind = .bounds ∧ Beyond ∨ e.kind = .argument ∧ ¬ Beyond)
    (hbeyond : Beyond → ∃ e, Refused e) : Reads There Refused Beyond p result := by
  obtain ⟨hsucceeds, hfails⟩ :=
    outcome_decided (fun s ⟨a, hnames, hthere⟩ => hsuccess a s hnames hthere) hrefusal heither
  refine ⟨hsucceeds, hfails, ⟨?_, fun hpast => ?_⟩, fun e hfailed hinside => ?_⟩
  · rintro ⟨e, hfailed, hbounds⟩
    rcases hkind e ((hfails e).mp hfailed) with ⟨-, hpast⟩ | ⟨hargument, -⟩
    · exact hpast
    · rw [hbounds] at hargument
      cases hargument
  · obtain ⟨e, hrefused⟩ := hbeyond hpast
    rcases hkind e hrefused with ⟨hbounds, -⟩ | ⟨-, hwithin⟩
    · exact ⟨e, (hfails e).mpr hrefused, hbounds⟩
    · exact absurd hpast hwithin
  · rcases hkind e ((hfails e).mp hfailed) with ⟨hbounds, -⟩ | ⟨hargument, -⟩
    · exact absurd hbounds hinside
    · exact hargument

/-- A guest that fails for want of a block, or else gets a pointer at which the string is. -/
theorem Stores.of_cases {out : Except Stop Int32 × GuestState}
    (hcases : (Heap.lastAddress < Heap.roundUp 8 g.heap.next + length ∧
        ∃ stop, out = (.error stop, g)) ∨
      ∃ p after, out = (.ok p, after) ∧ Heap.roundUp 8 g.heap.next + length ≤ Heap.lastAddress ∧
        p.toInt = Heap.roundUp 8 g.heap.next + into ∧
        decode layout after.heap.memory p = .ok s) :
    Stores layout s g length into out.1 out.2 := by
  rcases hcases with ⟨hbeyond, stop, rfl⟩ | ⟨p, after, rfl, hfits, hnames, hread⟩
  · refine ⟨⟨?_, fun hfits => absurd hfits (Nat.not_le_of_lt hbeyond)⟩, nofun, nofun⟩
    rintro ⟨p, hsuccess⟩
    cases hsuccess
  · refine ⟨⟨fun _ => hfits, fun _ => ⟨p, rfl⟩⟩, ?_, ?_⟩
    · rintro _ ⟨⟩
      exact hnames
    · rintro _ ⟨⟩
      exact hread

end

/-! ## Where a counted string is, and why there is none -/

/-- The units of a string begin at an address, and their length in bytes stands before it. -/
structure CountedAt (m : Memory) (a : Nat) (s : String) : Prop where
  header : 4 ≤ a
  length : m.word (a - 4) = 2 * (Utf16.encodeChars s.toList).length
  units : m.Holds a (Utf16.encode s)

/-- A pointer names an address with a number inside the memory before it. -/
structure Headed (m : Memory) (p : Int32) (a n : Nat) : Prop where
  names : p.toInt = a
  header : 4 ≤ a
  inside : a ≤ m.size
  length : m.word (a - 4) = n

/-- Why there is no counted string at a pointer: the first of these that applies. -/
inductive CountedRefused (m : Memory) (p : Int32) : Failure → Prop where
  | negative (hnegative : p.toInt < 0) :
      CountedRefused m p (Cause.badArgument "ptr" (toString p ++ " is negative"))
  | headless (hnatural : 0 ≤ p.toInt) (hlow : p.toInt < 4) :
      CountedRefused m p (Cause.badArgument "ptr" "string pointer has no length header")
  | header {a : Nat} (hnames : p.toInt = a) (hheader : 4 ≤ a) (hbeyond : m.size < a) :
      CountedRefused m p (Cause.outOfBounds (a - 4) 4 m.size)
  | odd {a n} (hheaded : Headed m p a n) (hodd : n % 2 ≠ 0) :
      CountedRefused m p (Cause.badArgument "string" (s!"UTF-16 byte length {n} is odd"))
  | body {a n} (hheaded : Headed m p a n) (heven : n % 2 = 0) (hbeyond : m.size < a + n) :
      CountedRefused m p (Cause.outOfBounds a n m.size)
  | unpaired {a n} (hheaded : Headed m p a n) (heven : n % 2 = 0) (hinside : a + n ≤ m.size)
      (hunpaired : Utf16.Unpaired (Utf16.ofBytes (m.slice a n))) :
      CountedRefused m p ⟨.badArgument "string" "invalid UTF-16", [Utf16.loneSurrogate]⟩

/-- The length before a pointer, or units of even length behind it, run past the end of the
memory. -/
def CountedBeyond (m : Memory) (p : Int32) : Prop :=
  4 ≤ p.toInt ∧ (m.size < p.toInt ∨ ∃ a n, Headed m p a n ∧ n % 2 = 0 ∧ m.size < a + n)

variable {m : Memory} {p : Int32} {a n : Nat} {s : String} {e : Failure}

/-- A pointer is at a string, or there is a reason why not. -/
theorem refused_or_counted (m : Memory) (p : Int32) :
    (∃ e, CountedRefused m p e) ∨ ∃ s, ∃ a : Nat, p.toInt = a ∧ CountedAt m a s := by
  -- the questions in the order in which the reader asks them
  rcases natural_or_negative p with ⟨a, hnames⟩ | hnegative
  · by_cases hheader : 4 ≤ a
    · by_cases hinside : a ≤ m.size
      · have hheaded : Headed m p a _ := ⟨hnames, hheader, hinside, rfl⟩
        by_cases heven : m.word (a - 4) % 2 = 0
        · by_cases hfits : a + m.word (a - 4) ≤ m.size
          · cases hread : Utf16.decode (m.slice a (m.word (a - 4))) with
            | none => exact .inl ⟨_, .unpaired hheaded heven hfits (Utf16.decode_eq_none.mp hread)⟩
            | some s =>
              have hunits := (Utf16.decode_eq_some
                (by rw [Memory.length_slice]; exact heven)).mp hread
              refine .inr ⟨s, a, hnames, hheader, ?_, ?_⟩
              · rw [← Utf16.length_encode, hunits, Memory.length_slice]
              · rw [hunits]
                exact Memory.holds_slice hfits
          · exact .inl ⟨_, .body hheaded heven (Nat.lt_of_not_le hfits)⟩
        · exact .inl ⟨_, .odd hheaded heven⟩
      · exact .inl ⟨_, .header hnames hheader (Nat.lt_of_not_le hinside)⟩
    · exact .inl ⟨_, .headless (by omega) (by omega)⟩
  · exact .inl ⟨_, .negative hnegative⟩

/-! ## Reading counted strings -/

theorem littleEndian_slice (m : Memory) (a : Nat) : littleEndian (m.slice a 4) = m.word a := by
  simp [littleEndian, Memory.slice, Memory.word, List.range_succ]
  omega

/-- What is read where a pointer names an address with a number before it. -/
theorem decodeCounted_of_headed (hheaded : Headed m p a n) : decodeCounted m p =
    if n % 2 = 0 then (m.read a n).bind fun body =>
      match Utf16.decode body with
      | some s => .ok s
      | none => .error ⟨.badArgument "string" "invalid UTF-16", [Utf16.loneSurrogate]⟩
    else refuse (.badArgument "string" (s!"UTF-16 byte length {n} is odd")) := by
  have hroom : ¬ a < 4 := Nat.not_lt_of_le hheaded.header
  have hinside : a - 4 + 4 ≤ m.size := by
    have := hheaded.inside
    omega
  simp only [decodeCounted, guestNat_of_natural hheaded.names, Memory.read_of_inside hinside,
    littleEndian_slice, hheaded.length, bind, Except.bind, if_neg hroom]
  by_cases heven : n % 2 = 0
  · rw [if_pos heven, if_neg (not_not_intro heven)]
    rfl
  · rw [if_neg heven, if_pos heven]
    rfl

theorem decode_of_counted (hnames : p.toInt = a) (hthere : CountedAt m a s) :
    decode .counted m p = .ok s := by
  have hlength := hthere.length
  rw [← Utf16.length_encode] at hlength
  have hinside : a ≤ m.size := by
    have := hthere.units.inside
    omega
  -- units are two bytes each, so that the length in front cannot be odd
  have heven : (Utf16.encode s).length % 2 = 0 := by
    rw [Utf16.length_encode]
    omega
  have hread : Utf16.decode (Utf16.encode s) = some s := (Utf16.decode_eq_some heven).mpr rfl
  show decodeCounted m p = _
  rw [decodeCounted_of_headed ⟨hnames, hthere.header, hinside, hlength⟩, if_pos heven,
    Memory.read_of_inside hthere.units.inside, hthere.units.slice]
  simp only [Except.bind, hread]

theorem decode_of_countedRefused (hrefused : CountedRefused m p e) :
    decode .counted m p = .error e := by
  show decodeCounted m p = _
  -- The conditions stand in the order in which the decoder checks them.
  cases hrefused with
  | negative hnegative =>
    rw [decodeCounted, guestNat_of_negative hnegative]
    rfl
  | headless hnatural hlow =>
    rcases natural_or_negative p with ⟨a, hnames⟩ | hnegative
    · have hlow : a < 4 := by omega
      simp only [decodeCounted, guestNat_of_natural hnames, bind, Except.bind, if_pos hlow]
      rfl
    · omega
  | @header a hnames hheader hbeyond =>
    have hroom : ¬ a < 4 := Nat.not_lt_of_le hheader
    have houtside : m.size < a - 4 + 4 := by omega
    simp only [decodeCounted, guestNat_of_natural hnames, bind, Except.bind, if_neg hroom,
      Memory.read_of_beyond houtside]
    rfl
  | odd hheaded hodd =>
    rw [decodeCounted_of_headed hheaded, if_neg hodd]
    rfl
  | body hheaded heven hbeyond =>
    rw [decodeCounted_of_headed hheaded, if_pos heven, Memory.read_of_beyond hbeyond]
    rfl
  | unpaired hheaded heven hinside hunpaired =>
    rw [decodeCounted_of_headed hheaded, if_pos heven, Memory.read_of_inside hinside]
    show (match Utf16.decode (m.slice _ _) with | some s => _ | none => _) = _
    rw [Utf16.decode_eq_none.mpr hunpaired]

theorem Headed.unique {a' n' : Nat} (hheaded : Headed m p a n) (hheaded' : Headed m p a' n') :
    a' = a ∧ n' = n := by
  have hsame : a' = a := by
    have := hheaded.names.symm.trans hheaded'.names
    omega
  subst hsame
  exact ⟨rfl, hheaded'.length.symm.trans hheaded.length⟩

/-- A pointer with a length before it that is odd, or of units inside the memory, is not beyond. -/
theorem Headed.not_beyond (hheaded : Headed m p a n) (hfits : n % 2 ≠ 0 ∨ a + n ≤ m.size) :
    ¬ CountedBeyond m p := by
  rintro ⟨-, hpast | ⟨a', n', hheaded', heven, hpast⟩⟩
  · have hnames := hheaded.names
    have hinside := hheaded.inside
    omega
  · obtain ⟨rfl, rfl⟩ := hheaded.unique hheaded'
    omega

theorem CountedRefused.kind (hrefused : CountedRefused m p e) :
    e.kind = .bounds ∧ CountedBeyond m p ∨ e.kind = .argument ∧ ¬ CountedBeyond m p := by
  cases hrefused with
  | negative hnegative => exact .inr ⟨rfl, fun hbeyond => by have := hbeyond.1; omega⟩
  | headless hnatural hlow => exact .inr ⟨rfl, fun hbeyond => by have := hbeyond.1; omega⟩
  | header hnames hheader hbeyond => exact .inl ⟨rfl, by omega, .inl (by omega)⟩
  | odd hheaded hodd => exact .inr ⟨rfl, hheaded.not_beyond (.inl hodd)⟩
  | @body a n hheaded heven hbeyond =>
    have hheader := hheaded.header
    have hnames := hheaded.names
    exact .inl ⟨rfl, by omega, .inr ⟨a, n, hheaded, heven, hbeyond⟩⟩
  | unpaired hheaded heven hinside hunpaired => exact .inr ⟨rfl, hheaded.not_beyond (.inr hinside)⟩

/-- What runs past the end of the memory is refused. -/
theorem CountedBeyond.refused (hbeyond : CountedBeyond m p) : ∃ e, CountedRefused m p e := by
  obtain ⟨hheader, hpast | ⟨a, n, hheaded, heven, hpast⟩⟩ := hbeyond
  · rcases natural_or_negative p with ⟨a, hnames⟩ | hnegative
    · exact ⟨_, .header hnames (by omega) (by omega)⟩
    · omega
  · exact ⟨_, .body hheaded heven hpast⟩

theorem decode_counted (m : Memory) (p : Int32) :
    Reads (CountedAt m) (CountedRefused m p) (CountedBeyond m p) p (decode .counted m p) :=
  .of_decided (fun _ _ => decode_of_counted) (fun _ => decode_of_countedRefused)
    (refused_or_counted m p) (fun _ hrefused => hrefused.kind) CountedBeyond.refused

/-! ## Laying counted strings out -/

theorem length_encodeCounted (s : String) :
    (encodeCounted s).length = 4 + 2 * (Utf16.encodeChars s.toList).length := by
  rw [encodeCounted, List.length_append, Utf16.length_encode]
  rfl

/-- Four bytes hold a number below `2 ^ 32`. -/
theorem word_of_holds (hheld : m.Holds a (littleEndian32 n)) (hsmall : n < 2 ^ 32) :
    m.word a = n := by
  have hfour : (littleEndian32 n).length = 4 := rfl
  have hb₀ := hheld.bytes 0 (by omega)
  have hb₁ := hheld.bytes 1 (by omega)
  have hb₂ := hheld.bytes 2 (by omega)
  have hb₃ := hheld.bytes 3 (by omega)
  -- the bytes are the digits of the number to the base 256
  simp only [littleEndian32, List.getElem_cons_zero, List.getElem_cons_succ, Nat.add_zero]
    at hb₀ hb₁ hb₂ hb₃
  rw [Memory.word, hb₀, hb₁, hb₂, hb₃]
  simp only [UInt8.toNat_ofNat']
  omega

/-- A string that was laid out is at its first unit. -/
theorem countedAt_of_holds (hheld : m.Holds a (encodeCounted s))
    (hsmall : 2 * (Utf16.encodeChars s.toList).length < 2 ^ 32) : CountedAt m (a + 4) s := by
  obtain ⟨hheader, hunits⟩ := Memory.holds_append.mp hheld
  refine ⟨Nat.le_add_left 4 a, ?_, hunits⟩
  rw [Utf16.length_encode] at hheader
  rw [Nat.add_sub_cancel]
  exact word_of_holds hheader hsmall

/-- A guest lays a string out in a fresh block, with the pointer four bytes in. -/
theorem storeCounted_stores (s : String) (g : GuestState) :
    Stores .counted s g (4 + 2 * (Utf16.encodeChars s.toList).length) 4
      (GuestM.storeCounted s g).1 (GuestM.storeCounted s g).2 := by
  apply Stores.of_cases
  have hlength := length_encodeCounted s
  unfold GuestM.storeCounted
  by_cases hlong : 0x100000000 ≤ (encodeCounted s).length - 4
  · refine .inl ⟨by unfold Heap.lastAddress; omega,
      .failure (Cause.badArgument "string" "string too long"), ?_⟩
    rw [if_pos hlong]
    rfl
  rw [if_neg hlong]
  rcases GuestM.store_cases (encodeCounted s) g with
    ⟨hbeyond, e, hfailed⟩ | ⟨heap, hstored, hfits, hheld⟩
  · exact .inl ⟨by omega, .failure e, GuestM.bind_error hfailed⟩
  · -- the block is long enough for the sum to be a pointer still
    have hnames : (Int32.ofNat (Heap.roundUp 8 g.heap.next) + Int32.ofNat 4).toInt =
        Heap.roundUp 8 g.heap.next + 4 := by
      rw [← Int32.ofNat_add, toInt_ofNat (by omega)]
      rfl
    have hsmall : 2 * (Utf16.encodeChars s.toList).length < 2 ^ 32 := by
      unfold Heap.lastAddress at hfits
      omega
    exact .inr ⟨_, _, GuestM.bind_ok hstored, by omega, hnames,
      decode_of_counted hnames (countedAt_of_holds hheld hsmall)⟩

theorem encodeCounted_injective : Function.Injective encodeCounted := by
  intro s t hsame
  have hheaders (n k : Nat) : (littleEndian32 n).length = (littleEndian32 k).length := rfl
  exact Utf16.encode_injective (List.append_inj_right hsame (hheaders _ _))

/-- At any pointer into any memory, a counted string is read just when it is there, and reading
fails for the first reason that there is otherwise: for bounds if its length or its units run past
the end of the memory, and else as an argument. A guest that lays a string out gets a pointer at
which it is read back, whenever a pointer can reach the end of its block. Different strings are laid
out differently. -/
theorem counted_faithful :
    (∀ (m : Memory) (p : Int32), Reads (CountedAt m) (CountedRefused m p) (CountedBeyond m p) p
      (decode .counted m p)) ∧
    (∀ (s : String) (g : GuestState),
      Stores .counted s g (4 + 2 * (Utf16.encodeChars s.toList).length) 4
        (GuestM.storeCounted s g).1 (GuestM.storeCounted s g).2) ∧
    Function.Injective encodeCounted :=
  ⟨decode_counted, storeCounted_stores, encodeCounted_injective⟩

/-! ## Where a zero-terminated string is, and why there is none -/

/-- A string without the character zero, with a zero behind it, begins at an address. -/
structure TerminatedAt (m : Memory) (a : Nat) (s : String) : Prop where
  noZero : Char.ofNat 0 ∉ s.toList
  short : (Utf8.encode s).length ≤ 65536
  bytes : m.Holds a (Utf8.encode s ++ [0])

/-- The first zero from `a` on comes after `n` bytes. -/
structure EndsAfter (m : Memory) (a n : Nat) : Prop where
  inside : a + n < m.size
  zero : m.get (a + n) = 0
  first : ∀ i < n, m.get (a + i) ≠ 0

/-- Why there is no zero-terminated string at a pointer. -/
inductive TerminatedRefused (m : Memory) (p : Int32) : Failure → Prop where
  | negative (hnegative : p.toInt < 0) :
      TerminatedRefused m p (Cause.badArgument "ptr" (toString p ++ " is negative"))
  | outside {a : Nat} (hnames : p.toInt = a) (hbeyond : m.size < a) :
      TerminatedRefused m p (Cause.outOfBounds a 0 m.size)
  | cutOff {a : Nat} (hnames : p.toInt = a) (hinside : a ≤ m.size) (hnear : m.size ≤ a + 65536)
      (hnoZero : ∀ i, a + i < m.size → m.get (a + i) ≠ 0) :
      TerminatedRefused m p (Cause.outOfBounds a (m.size - a + 1) m.size)
  | long {a : Nat} (hnames : p.toInt = a) (hfar : a + 65537 ≤ m.size)
      (hnoZero : ∀ i < 65537, m.get (a + i) ≠ 0) :
      TerminatedRefused m p (Cause.badArgument "string" (s!"longer than {longestTerminated} bytes"))
  | malformed {a n : Nat} {fault} (hnames : p.toInt = a) (hends : EndsAfter m a n)
      (hnear : n ≤ 65536) (hnoText : ∀ s, Utf8.encode s ≠ m.slice a n)
      (hfirst : Utf8.decode (m.slice a n) = .error fault) :
      TerminatedRefused m p ⟨.badArgument "string" "invalid UTF-8", [fault.message]⟩

/-- The memory ends before a pointer, or before a zero and before the string is too long. -/
def TerminatedBeyond (m : Memory) (p : Int32) : Prop :=
  ∃ a : Nat, p.toInt = a ∧
    (m.size < a ∨ m.size ≤ a + 65536 ∧ ∀ i, a + i < m.size → m.get (a + i) ≠ 0)

/-! ## The first zero -/

/-- Among the next `n` bytes there is a first zero, or there is none. -/
theorem endsAfter_or_none (m : Memory) (a n : Nat) (hinside : a + n ≤ m.size) :
    (∃ k < n, EndsAfter m a k) ∨ ∀ i < n, m.get (a + i) ≠ 0 := by
  by_cases hfound : ∃ k, k < n ∧ m.get (a + k) = 0
  · -- the least of these places is the first zero
    obtain ⟨hsmall, hzero⟩ := Nat.find_spec hfound
    refine .inl ⟨Nat.find hfound, hsmall, ⟨by omega, hzero, fun i hbefore hzero => ?_⟩⟩
    exact Nat.find_min hfound hbefore ⟨by omega, hzero⟩
  · exact .inr fun i hsmall hzero => hfound ⟨i, hsmall, hzero⟩

/-- The bytes up to the first zero. -/
theorem takeWhile_slice (hends : EndsAfter m a n) (k : Nat) :
    (m.slice a (n + 1 + k)).takeWhile (· ≠ 0) = m.slice a n := by
  have hbefore : ∀ b ∈ m.slice a n, decide (b ≠ 0) = true := by
    intro b hthere
    obtain ⟨i, hsmall, rfl⟩ := List.mem_map.mp hthere
    exact decide_eq_true (hends.first i (List.mem_range.mp hsmall))
  have hstop : m.slice (a + n) 1 = [0] := by
    rw [← hends.zero]
    rfl
  rw [Memory.slice_add, Memory.slice_add, hstop, List.append_assoc,
    List.takeWhile_append_of_pos hbefore]
  exact List.append_nil _

/-- Without a zero all the bytes are taken. -/
theorem takeWhile_slice_of_none (hnoZero : ∀ i < n, m.get (a + i) ≠ 0) :
    (m.slice a n).takeWhile (· ≠ 0) = m.slice a n := by
  rw [List.takeWhile_eq_self_iff]
  intro b hthere
  obtain ⟨i, hsmall, rfl⟩ := List.mem_map.mp hthere
  exact decide_eq_true (hnoZero i (List.mem_range.mp hsmall))

/-- Only the character zero has a zero among its bytes. -/
theorem zero_mem_utf8EncodeChar {c : Char} :
    (0 : UInt8) ∈ String.utf8EncodeChar c ↔ c = Char.ofNat 0 := by
  -- Every byte of a character but the null one is a positive number below 256.
  have hnonzero {n : Nat} (hpositive : 0 < n) (hsmall : n < 0x100) :
      ¬ (0 : UInt8) = UInt8.ofNat n := by
    rw [eq_comm, Utf8.ofNat_eq hsmall]
    exact Nat.ne_of_gt hpositive
  constructor
  · intro hthere
    by_contra hother
    have hpositive : 0 < c.toNat := by
      refine Nat.pos_of_ne_zero fun hzero => hother ?_
      rw [← hzero, Char.ofNat_toNat]
    have hvalid : c.toNat < 0xd800 ∨ 0xdfff < c.toNat ∧ c.toNat < 0x110000 := c.valid
    have hbytes := Utf8.utf8EncodeChar_ofNat hvalid
    rw [Char.ofNat_toNat] at hbytes
    rw [hbytes] at hthere
    split_ifs at hthere <;>
      simp (disch := omega) only [List.mem_cons, List.not_mem_nil, hnonzero, or_self] at hthere
  · rintro rfl
    decide

theorem zero_mem_encode {s : String} : (0 : UInt8) ∈ Utf8.encode s ↔ Char.ofNat 0 ∈ s.toList := by
  simp only [Utf8.encode, List.mem_flatMap, zero_mem_utf8EncodeChar, exists_eq_right]

/-- Where a string is, the first zero comes right behind its bytes. -/
theorem TerminatedAt.endsAfter (hthere : TerminatedAt m a s) :
    EndsAfter m a (Utf8.encode s).length := by
  obtain ⟨htext, hstop⟩ := Memory.holds_append.mp hthere.bytes
  refine ⟨hstop.inside, hstop.bytes 0 Nat.one_pos, fun i hsmall hzero => hthere.noZero ?_⟩
  rw [← zero_mem_encode, ← hzero, htext.bytes i hsmall]
  exact List.getElem_mem hsmall

/-- Bytes before a first zero that are text are a string that is there. -/
theorem EndsAfter.terminatedAt (hends : EndsAfter m a n) (hnear : n ≤ 65536)
    (htext : Utf8.encode s = m.slice a n) : TerminatedAt m a s := by
  have hstop : m.slice (a + n) 1 = [0] := by
    rw [← hends.zero]
    rfl
  refine ⟨fun hzero => ?_, ?_, ?_⟩
  · rw [← zero_mem_encode, htext] at hzero
    obtain ⟨i, hsmall, hzero⟩ := List.mem_map.mp hzero
    exact hends.first i (List.mem_range.mp hsmall) hzero
  · rw [htext, Memory.length_slice]
    exact hnear
  · rw [htext, ← hstop, ← Memory.slice_add]
    exact Memory.holds_slice hends.inside

/-! ## Reading zero-terminated strings -/

/-- What is read at a pointer into the memory, where the scan looks at `window` bytes. -/
theorem decodeTerminated_of_inside {window : Nat} (hnames : p.toInt = a) (hinside : a ≤ m.size)
    (hwidth : min (m.size - a) (longestTerminated + 1) = window) :
    decodeTerminated m p =
      let body := (m.slice a window).takeWhile (· ≠ 0)
      if body.length = window then
        if longestTerminated < window then
          refuse (.badArgument "string" (s!"longer than {longestTerminated} bytes"))
        else refuse (.outOfBounds a (window + 1) m.size)
      else match Utf8.decode body with
        | .ok s => .ok s
        | .error fault => .error ⟨.badArgument "string" "invalid UTF-8", [fault.message]⟩ := by
  subst hwidth
  have hfits : a + min (m.size - a) (longestTerminated + 1) ≤ m.size := by omega
  simp only [decodeTerminated, guestNat_of_natural hnames, Memory.checkRange, Nat.add_zero,
    if_pos hinside, Memory.read_of_inside hfits, bind, Except.bind]
  rfl

/-- If there is a first zero in the window, the bytes before it are read as text. -/
theorem decodeTerminated_of_ends (hnames : p.toInt = a) (hends : EndsAfter m a n)
    (hnear : n ≤ longestTerminated) : decodeTerminated m p = match Utf8.decode (m.slice a n) with
      | .ok s => .ok s
      | .error fault => .error ⟨.badArgument "string" "invalid UTF-8", [fault.message]⟩ := by
  have hinside := hends.inside
  -- the scan sees the zero, and maybe bytes behind it
  obtain ⟨k, hwindow⟩ : ∃ k, min (m.size - a) (longestTerminated + 1) = n + 1 + k :=
    Nat.exists_eq_add_of_le (by omega)
  have hshort : ¬ n = n + 1 + k := by omega
  simp only [decodeTerminated_of_inside hnames (by omega) hwindow, takeWhile_slice hends,
    Memory.length_slice, if_neg hshort]

theorem decode_of_terminated (hnames : p.toInt = a) (hthere : TerminatedAt m a s) :
    decode .terminated m p = .ok s := by
  obtain ⟨htext, -⟩ := Memory.holds_append.mp hthere.bytes
  show decodeTerminated m p = _
  rw [decodeTerminated_of_ends hnames hthere.endsAfter hthere.short, htext.slice,
    Utf8.decode_encode]

theorem decode_of_terminatedRefused (hrefused : TerminatedRefused m p e) :
    decode .terminated m p = .error e := by
  show decodeTerminated m p = _
  -- What differs from case to case is how much of the memory the decoder looks at.
  cases hrefused with
  | negative hnegative =>
    rw [decodeTerminated, guestNat_of_negative hnegative]
    rfl
  | @outside a hnames hbeyond =>
    have hpast : ¬ a ≤ m.size := Nat.not_le_of_lt hbeyond
    simp only [decodeTerminated, guestNat_of_natural hnames, Memory.checkRange, Nat.add_zero,
      if_neg hpast, bind, Except.bind]
    rfl
  -- The memory ends first: the window is the rest of the memory, and it holds no zero.
  | @cutOff a hnames hinside hnear hnoZero =>
    have hwindow : min (m.size - a) (longestTerminated + 1) = m.size - a := by
      unfold longestTerminated
      omega
    have hsmall : ¬ longestTerminated < m.size - a := by
      unfold longestTerminated
      omega
    have hall : (m.slice a (m.size - a)).takeWhile (· ≠ 0) = m.slice a (m.size - a) :=
      takeWhile_slice_of_none fun i h => hnoZero i (by omega)
    simp only [decodeTerminated_of_inside hnames hinside hwindow, hall, Memory.length_slice,
      if_true, if_neg hsmall]
    rfl
  -- The limit comes first: the window is one byte longer than the longest string.
  | @long a hnames hfar hnoZero =>
    have hwindow : min (m.size - a) (longestTerminated + 1) = longestTerminated + 1 := by
      unfold longestTerminated
      omega
    have hall : (m.slice a (longestTerminated + 1)).takeWhile (· ≠ 0) =
        m.slice a (longestTerminated + 1) := takeWhile_slice_of_none hnoZero
    simp only [decodeTerminated_of_inside hnames (by omega) hwindow, hall, Memory.length_slice,
      if_true, if_pos (Nat.lt_succ_self longestTerminated)]
    rfl
  | malformed hnames hends hnear hnoText hfirst =>
    rw [decodeTerminated_of_ends hnames hends hnear, hfirst]

/-- A pointer is at a string, or there is a reason why not. -/
theorem refused_or_terminated (m : Memory) (p : Int32) :
    (∃ e, TerminatedRefused m p e) ∨ ∃ s, ∃ a : Nat, p.toInt = a ∧ TerminatedAt m a s := by
  rcases natural_or_negative p with ⟨a, hnames⟩ | hnegative
  -- The search stops at the first zero, at the end of memory, or one byte past the limit.
  · by_cases hinside : a ≤ m.size
    · rcases endsAfter_or_none m a (min (m.size - a) 65537) (by omega) with
        ⟨n, hnear, hends⟩ | hnoZero
      · cases hread : Utf8.decode (m.slice a n) with
        | error fault =>
          have hnoText s : Utf8.encode s ≠ m.slice a n := fun htext => by
            rw [← Utf8.decode_eq_ok, hread] at htext
            cases htext
          exact .inl ⟨_, .malformed hnames hends (by omega) hnoText hread⟩
        | ok s => exact .inr ⟨s, a, hnames, hends.terminatedAt (by omega)
          (Utf8.decode_eq_ok.mp hread)⟩
      · by_cases hnear : m.size ≤ a + 65536
        · exact .inl ⟨_, .cutOff hnames hinside hnear fun i h => hnoZero i (by omega)⟩
        · exact .inl ⟨_, .long hnames (by omega) fun i h => hnoZero i (by omega)⟩
    · exact .inl ⟨_, .outside hnames (Nat.lt_of_not_le hinside)⟩
  · exact .inl ⟨_, .negative hnegative⟩

theorem TerminatedRefused.kind (hrefused : TerminatedRefused m p e) :
    e.kind = .bounds ∧ TerminatedBeyond m p ∨ e.kind = .argument ∧ ¬ TerminatedBeyond m p := by
  cases hrefused with
  | negative hnegative =>
    refine .inr ⟨rfl, ?_⟩
    rintro ⟨a, hnames, -⟩
    omega
  | outside hnames hbeyond => exact .inl ⟨rfl, _, hnames, .inl hbeyond⟩
  | cutOff hnames hinside hnear hnoZero => exact .inl ⟨rfl, _, hnames, .inr ⟨hnear, hnoZero⟩⟩
  | long hnames hfar hnoZero =>
    refine .inr ⟨rfl, ?_⟩
    rintro ⟨a', hnames', hpast | ⟨hnear, -⟩⟩ <;> omega
  | @malformed a n fault hnames hends hnear hnoText hfirst =>
    refine .inr ⟨rfl, ?_⟩
    rintro ⟨a', hnames', hpast⟩
    obtain rfl : a' = a := by omega
    have hinside := hends.inside
    rcases hpast with hpast | ⟨-, hnoZero⟩
    · omega
    · exact hnoZero n hinside hends.zero

/-- What runs past the end of the memory is refused. -/
theorem TerminatedBeyond.refused (hbeyond : TerminatedBeyond m p) :
    ∃ e, TerminatedRefused m p e := by
  obtain ⟨a, hnames, hpast | ⟨hnear, hnoZero⟩⟩ := hbeyond
  · exact ⟨_, .outside hnames hpast⟩
  · by_cases hinside : a ≤ m.size
    · exact ⟨_, .cutOff hnames hinside hnear hnoZero⟩
    · exact ⟨_, .outside hnames (Nat.lt_of_not_le hinside)⟩

theorem decode_terminated (m : Memory) (p : Int32) :
    Reads (TerminatedAt m) (TerminatedRefused m p) (TerminatedBeyond m p) p
      (decode .terminated m p) :=
  .of_decided (fun _ _ => decode_of_terminated) (fun _ => decode_of_terminatedRefused)
    (refused_or_terminated m p) (fun _ hrefused => hrefused.kind) TerminatedBeyond.refused

/-! ## Laying zero-terminated strings out -/

/-- A guest lays a string out in a fresh block, with the pointer at its start. -/
theorem storeTerminated_stores (hnoZero : Char.ofNat 0 ∉ s.toList)
    (hshort : (Utf8.encode s).length ≤ 65536) (g : GuestState) :
    Stores .terminated s g ((Utf8.encode s).length + 1) 0
      (GuestM.storeTerminated s g).1 (GuestM.storeTerminated s g).2 := by
  apply Stores.of_cases
  have hlength : (encodeTerminated s).length = (Utf8.encode s).length + 1 := List.length_append
  rw [← hlength]
  rcases GuestM.store_cases (encodeTerminated s) g with
    ⟨hbeyond, e, hfailed⟩ | ⟨heap, hstored, hfits, hheld⟩
  · exact .inl ⟨hbeyond, .failure e, hfailed⟩
  · have hnames : (Int32.ofNat (Heap.roundUp 8 g.heap.next)).toInt = Heap.roundUp 8 g.heap.next :=
      toInt_ofNat (by omega)
    exact .inr ⟨_, _, hstored, hfits, hnames, decode_of_terminated hnames ⟨hnoZero, hshort, hheld⟩⟩

/-- At any pointer into any memory, a zero-terminated string is read just when it is there, and
reading fails for the reason that there is otherwise: for bounds if the memory ends before a zero
and before the string is too long, and else as an argument. A guest that lays out a string without a
zero that is not too long gets a pointer at which it is read back, whenever a pointer can reach the
end of its block. -/
theorem terminated_faithful :
    (∀ (m : Memory) (p : Int32), Reads (TerminatedAt m) (TerminatedRefused m p)
      (TerminatedBeyond m p) p (decode .terminated m p)) ∧
    ∀ (s : String) (g : GuestState), Char.ofNat 0 ∉ s.toList → (Utf8.encode s).length ≤ 65536 →
      Stores .terminated s g ((Utf8.encode s).length + 1) 0
        (GuestM.storeTerminated s g).1 (GuestM.storeTerminated s g).2 :=
  ⟨decode_terminated, fun _ g hnoZero hshort => storeTerminated_stores hnoZero hshort g⟩

/-- A guest without any memory yet lays out a string behind the low addresses. -/
theorem first_string_read_back :
    Char.ofNat 0 ∉ "Größe".toList ∧ (Utf8.encode "Größe").length ≤ 65536 ∧
    ∃ p, (GuestM.storeTerminated "Größe" ⟨.ofPages 0, default⟩).1 = .ok p ∧ p.toInt = 16 ∧
      decode .terminated
        (GuestM.storeTerminated "Größe" ⟨.ofPages 0, default⟩).2.heap.memory p = .ok "Größe" := by
  have hnoZero : Char.ofNat 0 ∉ "Größe".toList := by decide
  have hshort : (Utf8.encode "Größe").length ≤ 65536 := by decide
  have hstores := terminated_faithful.2 "Größe" ⟨.ofPages 0, default⟩ hnoZero hshort
  obtain ⟨p, hstored⟩ := hstores.succeeds.mpr (by decide)
  exact ⟨hnoZero, hshort, p, hstored, hstores.pointer p hstored, hstores.back p hstored⟩

end StringLayout
end SandboxPool
