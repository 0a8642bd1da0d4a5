import SandboxPool.Proofs.Wire.Varint

/-!
# The grammar of fields

Which bytes are a number, a key, a value of some wire type, told without a reader. A number may
take more bytes than it needs, and groups may be nested as deep as a budget allows. The readers
recognise just this: they succeed where such bytes come next, take them and nothing else, and leave
what follows alone. For a value that is gone past because nobody knows its tag this is
`skipField_eq_ok`.
-/

namespace SandboxPool.Wire

/-! ## Readers and the bytes they take -/

theorem Input.eq_ofList (i : Input) : i = .ofList i.bytes := Input.ext_bytes rfl

section

variable {α β : Type} {f : Input → Result (α × Input)} {bytes : List UInt8} {a : α}

/-- Whatever follows the bytes, the reader takes them and comes to `a`. -/
def Takes (f : Input → Result (α × Input)) (bytes : List UInt8) (a : α) : Prop :=
  ∀ rest, f (.ofList (bytes ++ rest)) = .ok (a, .ofList rest)

/-- The reader comes to `a` where bytes of `grammar a` come next, and nowhere else. -/
def Recognises (f : Input → Result (α × Input)) (grammar : α → List UInt8 → Prop) : Prop :=
  ∀ a i j, f i = .ok (a, j) ↔ ∃ bytes, grammar a bytes ∧ i = .ofList (bytes ++ j.bytes)

/-- What goes on after reading has succeeded had been handed something. -/
theorem bind_eq_ok {r : Result α} {next : α → Result β} {b : β} (h : (r >>= next) = .ok b) :
    ∃ a, r = .ok a ∧ next a = .ok b := by
  cases r with
  | error e => cases h
  | ok a => exact ⟨a, rfl, h⟩

theorem Recognises.takes {grammar : α → List UInt8 → Prop} (h : Recognises f grammar)
    (hbytes : grammar a bytes) : Takes f bytes a := by
  intro rest
  rw [h]
  exact ⟨bytes, hbytes, rfl⟩

end

/-! ## Numbers -/

/-- Bytes that spell a number, seven bits to a byte and the lowest first: all but the last have
their high bit set. At most `more` bytes follow the first, and where none may follow, no more than
one bit is left. -/
inductive Numeral : (more n : Nat) → List UInt8 → Prop
  | last {more : Nat} {b : UInt8} (hlow : b < 0x80) (hbit : more = 0 → b ≤ 1) :
      Numeral more b.toNat [b]
  | next {more n : Nat} {b : UInt8} {bytes : List UInt8} (hhigh : 0x80 ≤ b)
      (hrest : Numeral more n bytes) : Numeral (more + 1) (b.toNat - 128 + 128 * n) (b :: bytes)

theorem Numeral.length_pos {more n : Nat} {bytes : List UInt8} (h : Numeral more n bytes) :
    0 < bytes.length := by
  cases h <;> exact Nat.succ_pos _

/-- A numeral is read as the number that it spells, at any scale. -/
theorem Numeral.readVarintFrom {more n : Nat} {bytes : List UInt8} (h : Numeral more n bytes)
    (scale value : Nat) (rest : List UInt8) :
    readVarintFrom more scale value (.ofList (bytes ++ rest)) =
      .ok (value + n * scale, .ofList rest) := by
  induction h generalizing scale value with
  | @last more b hlow hbit =>
    have hfew : ¬ (more = 0 ∧ 1 < b) := fun ⟨hmore, hlt⟩ => UInt8.not_lt.mpr (hbit hmore) hlt
    rw [Wire.readVarintFrom, List.singleton_append, Input.next?_cons]
    show (if b < 0x80 then if more = 0 ∧ 1 < b then _ else _ else _) = _
    rw [if_pos hlow, if_neg hfew]
  | @next more n b bytes hhigh hrest ih =>
    rw [Wire.readVarintFrom, List.cons_append, Input.next?_cons]
    show (if b < 0x80 then _ else Wire.readVarintFrom more (scale * 128)
      (value + (b.toNat - 128) * scale) _) = _
    rw [if_neg (UInt8.not_lt.mpr hhigh), ih, Nat.add_assoc]
    have hvalue : (b.toNat - 128) * scale + n * (scale * 128) =
        (b.toNat - 128 + 128 * n) * scale := by ring
    rw [hvalue]

theorem Input.eq_of_next? {i j : Input} {b : UInt8} (h : i.next? = some (b, j)) :
    i = .ofList (b :: j.bytes) := by
  obtain ⟨_ | ⟨c, rest⟩, size, hsize⟩ := i
  · cases h
  · obtain ⟨rfl, rfl⟩ := Prod.mk.inj (Option.some.inj h)
    exact Input.ext_bytes rfl

/-- What was read as a number was spelt so. -/
theorem numeral_of_readVarintFrom {more scale value m : Nat} {i j : Input}
    (h : readVarintFrom more scale value i = .ok (m, j)) :
    ∃ n bytes, Numeral more n bytes ∧ m = value + n * scale ∧ i = .ofList (bytes ++ j.bytes) := by
  -- By the bytes that are left: the last of ten may only hold a single bit.
  induction more generalizing scale value i with
  | zero =>
    rw [readVarintFrom] at h
    split at h
    · cases h
    · next b k hnext =>
      split at h
      · next hlow =>
        split at h
        · cases h
        · next hfew =>
          obtain ⟨rfl, rfl⟩ := Prod.mk.inj (Except.ok.inj h)
          have hbit : b ≤ 1 := UInt8.not_lt.mp fun hlt => hfew ⟨rfl, hlt⟩
          exact ⟨b.toNat, [b], .last hlow fun _ => hbit, rfl, Input.eq_of_next? hnext⟩
      · cases h
  | succ more ih =>
    rw [readVarintFrom] at h
    split at h
    · cases h
    · next b k hnext =>
      split at h
      · next hlow =>
        rw [if_neg (by omega)] at h
        obtain ⟨rfl, rfl⟩ := Prod.mk.inj (Except.ok.inj h)
        have hbit : more + 1 = 0 → b ≤ 1 := fun hmore => absurd hmore more.succ_ne_zero
        exact ⟨b.toNat, [b], .last hlow hbit, rfl, Input.eq_of_next? hnext⟩
      · next hhigh =>
        obtain ⟨n, bytes, hrest, rfl, rfl⟩ := ih h
        refine ⟨_, b :: bytes, .next (UInt8.not_lt.mp hhigh) hrest, by ring, ?_⟩
        exact Input.eq_of_next? hnext

/-- A number is read just where one is spelt with ten bytes at most. -/
theorem readVarint_recognises : Recognises readVarint (Numeral 9) := by
  intro n i j
  constructor
  · intro h
    obtain ⟨m, bytes, hbytes, rfl, rfl⟩ := numeral_of_readVarintFrom h
    exact ⟨bytes, by simpa using hbytes, rfl⟩
  · rintro ⟨bytes, hbytes, rfl⟩
    rw [readVarint, hbytes.readVarintFrom, Nat.zero_add, Nat.mul_one]
    rw [← Input.eq_ofList]

/-- The number that a writer writes is spelt by its bytes. -/
theorem numeral_writeVarint {n : Nat} (h : n < 2 ^ 64) : Numeral 9 n (writeVarint n) := by
  obtain ⟨bytes, hbytes, hsame⟩ := (readVarint_recognises n _ _).mp (readVarint_write h [])
  have hsame : writeVarint n = bytes := by simpa using congrArg Input.bytes hsame
  rwa [hsame]

/-! ## Keys -/

/-- Bytes that spell a key with a proper tag. -/
def Key.Spelt (k : Key) (bytes : List UInt8) : Prop :=
  ProperTag k.tag ∧ Numeral 9 (k.tag * 8 + k.wireType.code) bytes

theorem Key.Spelt.length_pos {k : Key} {bytes : List UInt8} (h : k.Spelt bytes) :
    0 < bytes.length := h.2.length_pos

theorem WireType.code_of_ofCode? {n : Nat} {w : WireType} (h : ofCode? n = some w) :
    w.code = n := by
  match n with
  | 0 | 1 | 2 | 3 | 4 | 5 => cases h; rfl
  | _ + 6 => cases h

/-- A key is read just where one is spelt. -/
theorem readKey_recognises : Recognises readKey Key.Spelt := by
  intro k i j
  -- Read, then spelt: the number that was read is the tag and the wire type put together.
  constructor
  · intro h
    rw [readKey] at h
    cases hread : readVarint i with
    | error e =>
      rw [hread] at h
      cases h
    | ok r =>
      obtain ⟨n, rest⟩ := r
      obtain ⟨bytes, hbytes, rfl⟩ := (readVarint_recognises n i rest).mp hread
      simp only [hread, bind, Except.bind] at h
      split at h
      · cases h
      · next hsmall =>
        split at h
        · cases h
        · next w hw =>
          split at h
          · cases h
          · next hzero =>
            obtain ⟨rfl, rfl⟩ := Prod.mk.inj (Except.ok.inj h)
            have hcode := WireType.code_of_ofCode? hw
            have hn : n / 8 * 8 + w.code = n := by omega
            refine ⟨bytes, ⟨⟨?_, ?_⟩, ?_⟩, rfl⟩
            · show 0 < n / 8
              omega
            · show n / 8 < 2 ^ 29
              omega
            · show Numeral 9 (n / 8 * 8 + w.code) bytes
              rwa [hn]
  -- Spelt, then read: dividing by eight takes the two apart again.
  · rintro ⟨bytes, ⟨⟨hpos, hlt⟩, hbytes⟩, rfl⟩
    have hw : k.wireType.code < 8 := k.wireType.code_lt
    have hsmall : ¬ 0x100000000 ≤ k.tag * 8 + k.wireType.code := by omega
    have hcode : (k.tag * 8 + k.wireType.code) % 8 = k.wireType.code := by omega
    have htag : (k.tag * 8 + k.wireType.code) / 8 = k.tag := by omega
    have hzero : ¬ k.tag = 0 := by omega
    have hread := readVarint_recognises.takes hbytes j.bytes
    simp only [readKey, hread, bind, Except.bind, if_neg hsmall, hcode, WireType.ofCode?_code,
      htag, if_neg hzero]
    exact congrArg (fun i => Except.ok (k, i)) j.eq_ofList.symm

/-- The key that a writer writes is spelt by its bytes. -/
theorem Key.spelt_write {tag : Nat} (h : ProperTag tag) (w : WireType) :
    Key.Spelt ⟨tag, w⟩ (Key.write ⟨tag, w⟩) := by
  have hw : w.code < 8 := w.code_lt
  have hlt : tag < 2 ^ 29 := h.2
  refine ⟨h, numeral_writeVarint ?_⟩
  show tag * 8 + w.code < 2 ^ 64
  omega

/-! ## Values -/

mutual

/-- Bytes that are a value behind a key, in which no more than `budget` levels are nested. -/
inductive Payload : (budget : Nat) → Key → List UInt8 → Prop
  | varint {budget tag n : Nat} {bytes : List UInt8} (hbytes : Numeral 9 n bytes) :
      Payload (budget + 1) ⟨tag, .varint⟩ bytes
  | fixed32 {budget tag : Nat} {bytes : List UInt8} (hlength : bytes.length = 4) :
      Payload (budget + 1) ⟨tag, .fixed32⟩ bytes
  | fixed64 {budget tag : Nat} {bytes : List UInt8} (hlength : bytes.length = 8) :
      Payload (budget + 1) ⟨tag, .fixed64⟩ bytes
  | delimited {budget tag : Nat} {length body : List UInt8}
      (hlength : Numeral 9 body.length length) :
      Payload (budget + 1) ⟨tag, .delimited⟩ (length ++ body)
  | group {budget tag : Nat} {bytes : List UInt8} (hbody : GroupBody budget tag bytes) :
      Payload (budget + 1) ⟨tag, .groupStart⟩ bytes

/-- Bytes that are the fields of a group and the end marker with the group's own tag. -/
inductive GroupBody : (budget tag : Nat) → List UInt8 → Prop
  | stop {budget tag : Nat} {marker : List UInt8} (hmarker : Key.Spelt ⟨tag, .groupEnd⟩ marker) :
      GroupBody budget tag marker
  | field {budget tag : Nat} {k : Key} {key value rest : List UInt8} (hkey : k.Spelt key)
      (hvalue : Payload budget k value) (hrest : GroupBody budget tag rest) :
      GroupBody budget tag (key ++ (value ++ rest))

end

theorem advance_eq_ok {n : Nat} {i j : Input} :
    advance n i = .ok j ↔ ∃ bytes, bytes.length = n ∧ i = .ofList (bytes ++ j.bytes) := by
  rw [advance]
  constructor
  · intro h
    split at h
    · next hfits =>
      rw [← Except.ok.inj h]
      have hlength : n ≤ i.bytes.length := by rwa [← i.size_eq]
      refine ⟨i.bytes.take n, List.length_take_of_le hlength, ?_⟩
      rw [Input.bytes_drop, List.take_append_drop, ← Input.eq_ofList]
    · cases h
  · rintro ⟨bytes, rfl, rfl⟩
    rw [if_pos (by simp), Input.drop_append, ← Input.eq_ofList]

/-! ## Going past a value -/

mutual

/-- A value is gone past, whatever follows it. Two units of fuel for a byte are enough: one is spent
on a key and one on the value behind it, which may be a group that begins at once. -/
theorem Payload.skipField {budget fuel : Nat} {k : Key} {bytes : List UInt8}
    (h : Payload budget k bytes) (hfuel : 2 * bytes.length + 1 ≤ fuel) (rest : List UInt8) :
    skipField fuel budget k (.ofList (bytes ++ rest)) = .ok (.ofList rest) := by
  obtain ⟨fuel, rfl⟩ : ∃ m, fuel = m + 1 := ⟨fuel - 1, by omega⟩
  -- The fuel covers a key and a value for each byte, which is more than any nesting needs.
  cases h with
  | varint hbytes =>
    simp only [Wire.skipField, readVarint_recognises.takes hbytes rest, bind, Except.bind]
    rfl
  | fixed32 hlength =>
    simp only [Wire.skipField]
    exact advance_eq_ok.mpr ⟨bytes, hlength, rfl⟩
  | fixed64 hlength =>
    simp only [Wire.skipField]
    exact advance_eq_ok.mpr ⟨bytes, hlength, rfl⟩
  | @delimited _ _ length body hlength =>
    have hread := readVarint_recognises.takes hlength (body ++ rest)
    simp only [Wire.skipField, List.append_assoc, hread, bind, Except.bind]
    exact advance_eq_ok.mpr ⟨body, rfl, rfl⟩
  | group hbody =>
    simp only [Wire.skipField]
    exact hbody.skipGroup (by omega) rest
termination_by fuel

/-- The rest of a group is gone past, whatever follows it. -/
theorem GroupBody.skipGroup {budget fuel tag : Nat} {bytes : List UInt8}
    (h : GroupBody budget tag bytes) (hfuel : 2 * bytes.length ≤ fuel) (rest : List UInt8) :
    skipGroup fuel (budget + 1) tag (.ofList (bytes ++ rest)) = .ok (.ofList rest) := by
  cases h with
  | stop hmarker =>
    have hpos := hmarker.length_pos
    obtain ⟨fuel, rfl⟩ : ∃ m, fuel = m + 1 := ⟨fuel - 1, by omega⟩
    have hread := readKey_recognises.takes hmarker rest
    simp only [Wire.skipGroup, hread, bind, Except.bind]
    rfl
  | @field _ _ k key value more hkey hvalue hrest =>
    have hpos := hkey.length_pos
    rw [List.length_append, List.length_append] at hfuel
    obtain ⟨fuel, rfl⟩ : ∃ m, fuel = m + 1 := ⟨fuel - 1, by omega⟩
    have hread := readKey_recognises.takes hkey (value ++ (more ++ rest))
    have hskip : Wire.skipField fuel budget k (.ofList (value ++ (more ++ rest))) = _ :=
      hvalue.skipField (by omega) (more ++ rest)
    have hstart : ¬ k.wireType = .groupEnd := by
      rintro hend
      cases hvalue <;> cases hend
    simp only [Wire.skipGroup, List.append_assoc, hread, bind, Except.bind, if_neg hstart,
      Nat.add_sub_cancel, hskip]
    exact hrest.skipGroup (by omega) rest
termination_by fuel

end

mutual

/-- What was gone past behind a key is a value of its wire type. -/
theorem Payload.of_skipField {fuel budget : Nat} {k : Key} {i j : Input}
    (h : skipField fuel budget k i = .ok j) :
    ∃ bytes, Payload budget k bytes ∧ i = .ofList (bytes ++ j.bytes) := by
  -- The case of a group goes through the other direction for bodies, with less fuel.
  obtain ⟨fuel, rfl⟩ : ∃ m, fuel = m + 1 :=
    Nat.exists_eq_add_one_of_ne_zero (by rintro rfl; cases h)
  rw [Wire.skipField] at h
  split at h
  · cases h
  next hbudget =>
  obtain ⟨budget, rfl⟩ : ∃ m, budget = m + 1 := ⟨budget - 1, by omega⟩
  obtain ⟨tag, w⟩ := k
  cases w with
  | varint =>
    obtain ⟨⟨n, k⟩, hread, hdone⟩ := bind_eq_ok h
    obtain ⟨bytes, hbytes, rfl⟩ := (readVarint_recognises n i k).mp hread
    rw [← Except.ok.inj hdone]
    exact ⟨bytes, .varint hbytes, rfl⟩
  | fixed32 =>
    obtain ⟨bytes, hlength, rfl⟩ := advance_eq_ok.mp h
    exact ⟨bytes, .fixed32 hlength, rfl⟩
  | fixed64 =>
    obtain ⟨bytes, hlength, rfl⟩ := advance_eq_ok.mp h
    exact ⟨bytes, .fixed64 hlength, rfl⟩
  | delimited =>
    obtain ⟨⟨n, k⟩, hread, hadvance⟩ := bind_eq_ok h
    obtain ⟨length, hlength, rfl⟩ := (readVarint_recognises n i k).mp hread
    obtain ⟨body, rfl, rfl⟩ := advance_eq_ok.mp hadvance
    refine ⟨length ++ body, .delimited hlength, ?_⟩
    rw [List.append_assoc, Input.bytes_ofList]
  | groupStart =>
    obtain ⟨bytes, hbody, rfl⟩ := GroupBody.of_skipGroup h
    exact ⟨bytes, .group hbody, rfl⟩
  | groupEnd => cases h
termination_by fuel

/-- What was gone past within a group is the rest of the group. -/
theorem GroupBody.of_skipGroup {fuel budget tag : Nat} {i j : Input}
    (h : skipGroup fuel (budget + 1) tag i = .ok j) :
    ∃ bytes, GroupBody budget tag bytes ∧ i = .ofList (bytes ++ j.bytes) := by
  obtain ⟨fuel, rfl⟩ : ∃ m, fuel = m + 1 :=
    Nat.exists_eq_add_one_of_ne_zero (by rintro rfl; cases h)
  rw [Wire.skipGroup] at h
  obtain ⟨⟨k, rest⟩, hread, hon⟩ := bind_eq_ok h
  obtain ⟨key, hkey, rfl⟩ := (readKey_recognises k i rest).mp hread
  dsimp only at hon
  split at hon
  · next hend =>
    -- The end of the group if the tag is the group's own, and an error if it is another.
    split at hon
    · next htag =>
      obtain ⟨_, _⟩ := k
      subst hend htag
      rw [← Except.ok.inj hon]
      exact ⟨key, .stop hkey, rfl⟩
    · cases hon
  · obtain ⟨more, hskip, hgroup⟩ := bind_eq_ok hon
    rw [Nat.add_sub_cancel] at hskip
    obtain ⟨value, hvalue, rfl⟩ := Payload.of_skipField hskip
    obtain ⟨body, hbody, rfl⟩ := GroupBody.of_skipGroup hgroup
    refine ⟨key ++ (value ++ body), .field hkey hvalue hbody, ?_⟩
    simp only [Input.bytes_ofList, List.append_assoc]
termination_by fuel

end

/-- With fuel enough for every input, a reader goes past an unknown field just where a value of its
wire type comes next. -/
theorem skipField_eq_ok {budget : Nat} {k : Key} {i j : Input} :
    skipField (2 * i.size + 2) budget k i = .ok j ↔
      ∃ bytes, Payload budget k bytes ∧ i = .ofList (bytes ++ j.bytes) := by
  constructor
  · exact Payload.of_skipField
  · rintro ⟨bytes, hbytes, rfl⟩
    rw [hbytes.skipField (by simp only [Input.size_ofList, List.length_append]; omega),
      ← Input.eq_ofList]

/-- Bytes that are a field with its key, in which no more than `budget` levels are nested. -/
inductive WholeField (budget tag : Nat) : List UInt8 → Prop
  | mk {w : WireType} {key value : List UInt8} (hkey : Key.Spelt ⟨tag, w⟩ key)
      (hvalue : Payload budget ⟨tag, w⟩ value) : WholeField budget tag (key ++ value)

/-- A field is at least its key. -/
theorem WholeField.ne_nil {budget tag : Nat} {bytes : List UInt8}
    (h : WholeField budget tag bytes) : bytes ≠ [] := by
  obtain ⟨hkey, -⟩ := h
  exact List.append_ne_nil_of_left_ne_nil (List.length_pos_iff.mp hkey.length_pos) _

end SandboxPool.Wire
