import Mathlib.Data.Nat.Log
import Mathlib.Tactic.Ring
import SandboxPool.Proofs.Text.Utf8
import SandboxPool.Wire.Codec

/-!
# What is written is read back: numbers, keys and texts

Each reader is shown to take exactly the bytes that its writer made, whatever follows them, and
each length that is told before writing to be the number of bytes written. Numbers have to be
below `2 ^ 64`: a tenth byte may only be 0 or 1, so the reader goes on for nine bytes and then
wants less than two.
-/

namespace SandboxPool.Wire

namespace Input

@[simp] theorem size_ofList (bytes : List UInt8) : (ofList bytes).size = bytes.length := rfl

theorem next?_cons (b : UInt8) (rest : List UInt8) :
    (ofList (b :: rest)).next? = some (b, ofList rest) := rfl

theorem take_append (bytes rest : List UInt8) :
    (ofList (bytes ++ rest)).take bytes.length = bytes := List.take_left

theorem drop_append (bytes rest : List UInt8) :
    (ofList (bytes ++ rest)).drop bytes.length = ofList rest := by
  apply ext_bytes
  exact List.drop_left

end Input

/-! ## Numbers -/

theorem writeVarint_ne_nil (n : Nat) : writeVarint n ≠ [] := by
  rw [writeVarint, writeVarintFrom]
  split
  · exact List.cons_ne_nil _ _
  · exact List.cons_ne_nil _ _

/-- A byte without the mark is the last one, and the tenth has one bit. -/
theorem readVarintFrom_last {fuel n : Nat} (scale value : Nat) (rest : List UInt8) (h : n < 128)
    (hlast : fuel = 0 → n < 2) :
    readVarintFrom fuel scale value (.ofList (UInt8.ofNat n :: rest)) =
      .ok (value + n * scale, .ofList rest) := by
  have hn : (UInt8.ofNat n).toNat = n := Text.Utf8.toNat_ofNat (by omega)
  have hlow : UInt8.ofNat n < 0x80 := (Text.Utf8.ofNat_lt (by omega) _).mpr h
  have hbit : ¬ (fuel = 0 ∧ 1 < UInt8.ofNat n) := by
    intro ⟨hfuel, hlt⟩
    have hlt : 1 < (UInt8.ofNat n).toNat := UInt8.lt_iff_toNat_lt.mp hlt
    have := hlast hfuel
    omega
  rw [readVarintFrom, Input.next?_cons]
  show (if UInt8.ofNat n < 0x80 then if fuel = 0 ∧ 1 < UInt8.ofNat n then _ else _ else _) = _
  rw [if_pos hlow, if_neg hbit, hn]

/-- A byte with the mark adds its seven bits, and reading goes on. -/
theorem readVarintFrom_more {fuel n : Nat} (scale value : Nat) (rest : List UInt8) (h : n < 128) :
    readVarintFrom (fuel + 1) scale value (.ofList (UInt8.ofNat (n + 128) :: rest)) =
      readVarintFrom fuel (scale * 128) (value + n * scale) (.ofList rest) := by
  have hn : (UInt8.ofNat (n + 128)).toNat = n + 128 := Text.Utf8.toNat_ofNat (by omega)
  have hhigh : ¬ UInt8.ofNat (n + 128) < 0x80 := by
    rw [UInt8.lt_iff_toNat_lt, hn]
    simp
  rw [readVarintFrom, Input.next?_cons]
  show (if UInt8.ofNat (n + 128) < 0x80 then _ else readVarintFrom fuel (scale * 128)
    (value + ((UInt8.ofNat (n + 128)).toNat - 128) * scale) _) = _
  rw [if_neg hhigh, hn, Nat.add_sub_cancel]

/-- From some byte on: the bytes of `n` add `n` times the scale that has been reached. -/
theorem readVarintFrom_write (fuel scale value n : Nat) (rest : List UInt8)
    (h : n < 2 * 128 ^ fuel) :
    readVarintFrom fuel scale value (.ofList (writeVarintFrom fuel n ++ rest)) =
      .ok (value + n * scale, .ofList rest) := by
  induction fuel generalizing scale value n with
  | zero => exact readVarintFrom_last scale value rest (by omega) (fun _ => by omega)
  | succ fuel ih =>
    rw [writeVarintFrom]
    split
    · next hsmall => exact readVarintFrom_last scale value rest hsmall (fun hz => by omega)
    · next hlarge =>
      have hrest : n / 128 < 2 * 128 ^ fuel := by
        rw [Nat.pow_succ] at h
        omega
      have hdiv : n % 128 + n / 128 * 128 = n := by omega
      have hvalue : n % 128 * scale + n / 128 * (scale * 128) = n * scale := by
        calc n % 128 * scale + n / 128 * (scale * 128)
            = (n % 128 + n / 128 * 128) * scale := by ring
          _ = n * scale := by rw [hdiv]
      rw [List.cons_append, readVarintFrom_more _ _ _ (by omega), ih _ _ _ hrest, Nat.add_assoc,
        hvalue]

/-- A number is read back from its bytes. -/
theorem readVarint_write {n : Nat} (h : n < 2 ^ 64) (rest : List UInt8) :
    readVarint (.ofList (writeVarint n ++ rest)) = .ok (n, .ofList rest) := by
  rw [readVarint, writeVarint, readVarintFrom_write 9 1 0 n rest (by omega), Nat.zero_add,
    Nat.mul_one]

/-- The bits above the lowest `k`. -/
theorem log2_eq_add {k n : Nat} (h : 2 ^ k ≤ n) : Nat.log2 n = Nat.log2 (n / 2 ^ k) + k := by
  have hk : k ≤ Nat.log 2 n := Nat.le_log_of_pow_le (by omega) h
  rw [Nat.log2_eq_log_two, Nat.log2_eq_log_two, Nat.log_div_base_pow]
  omega

theorem log2_lt {k n : Nat} (hk : 0 < k) (h : n < 2 ^ k) : Nat.log2 n < k := by
  rw [Nat.log2_eq_log_two]
  exact Nat.log_lt_of_lt_pow' (by omega) h

/-- The last bit makes no difference to how many bits there are: none is counted for 0 and 1. -/
theorem log2_or_one (n : Nat) : Nat.log2 (n ||| 1) = Nat.log2 n := by
  have hhalf : (n ||| 1) / 2 = n / 2 := by
    rw [Nat.or_div_two]
    simp
  rw [Nat.log2_def, Nat.log2_def n, hhalf]
  split_ifs <;> omega

/-- Seven bits to a byte. -/
theorem length_writeVarintFrom (fuel n : Nat) (h : n < 128 ^ (fuel + 1)) :
    (writeVarintFrom fuel n).length = Nat.log2 n / 7 + 1 := by
  induction fuel generalizing n with
  | zero =>
    have hlog : Nat.log2 n < 7 := log2_lt (by omega) (by simpa using h)
    show 1 = _
    omega
  | succ fuel ih =>
    rw [writeVarintFrom]
    split
    · next hsmall =>
      have hlog : Nat.log2 n < 7 := log2_lt (by omega) hsmall
      show 1 = _
      omega
    · next hlarge =>
      have hlog : Nat.log2 n = Nat.log2 (n / 128) + 7 := log2_eq_add (k := 7) (by omega)
      have hrest : n / 128 < 128 ^ (fuel + 1) := by
        rw [Nat.pow_succ] at h
        omega
      rw [List.length_cons, ih _ hrest, hlog]
      omega

/-- A number takes the bytes that were told. -/
theorem length_writeVarint {n : Nat} (h : n < 2 ^ 64) :
    (writeVarint n).length = varintLength n := by
  have hlog : Nat.log2 n < 64 := log2_lt (by omega) h
  rw [writeVarint, length_writeVarintFrom 9 n (by omega), varintLength, log2_or_one]
  omega

/-! ## Keys -/

theorem WireType.code_lt (w : WireType) : w.code < 8 := by
  cases w <;> decide

/-- The tags that a key can hold. -/
def ProperTag (tag : Nat) : Prop := 0 < tag ∧ tag < 2 ^ 29

instance (tag : Nat) : Decidable (ProperTag tag) := inferInstanceAs (Decidable (_ ∧ _))

theorem Key.write_ne_nil (k : Key) : k.write ≠ [] := writeVarint_ne_nil _

/-- A key is read back from its bytes. -/
theorem readKey_write {tag : Nat} (h : ProperTag tag) (w : WireType) (rest : List UInt8) :
    readKey (.ofList (Key.write ⟨tag, w⟩ ++ rest)) = .ok (⟨tag, w⟩, .ofList rest) := by
  have hw : w.code < 8 := w.code_lt
  obtain ⟨hpos, hlt⟩ := h
  have hsmall : ¬ 0x100000000 ≤ tag * 8 + w.code := by omega
  have hcode : (tag * 8 + w.code) % 8 = w.code := by omega
  have htag : (tag * 8 + w.code) / 8 = tag := by omega
  have hzero : ¬ tag = 0 := by omega
  have hread : readVarint (.ofList (Key.write ⟨tag, w⟩ ++ rest)) =
      .ok (tag * 8 + w.code, .ofList rest) :=
    readVarint_write (by show tag * 8 + w.code < _; omega) rest
  simp only [readKey, hread, bind, Except.bind, if_neg hsmall, hcode, WireType.ofCode?_code, htag,
    if_neg hzero]
  rfl

/-- A key takes the bytes that were told, whatever its wire type. -/
theorem length_key {tag : Nat} (h : ProperTag tag) (w : WireType) :
    (Key.write ⟨tag, w⟩).length = keyLength tag := by
  have hw : w.code < 8 := w.code_lt
  obtain ⟨hpos, hlt⟩ := h
  have hlog : Nat.log2 (tag * 8 + w.code) = Nat.log2 (tag * 8) := by
    rw [log2_eq_add (k := 3) (n := tag * 8 + w.code) (by omega),
      log2_eq_add (k := 3) (n := tag * 8) (by omega)]
    have hdiv : (tag * 8 + w.code) / 2 ^ 3 = tag * 8 / 2 ^ 3 := by omega
    rw [hdiv]
  rw [Key.write, length_writeVarint (by show tag * 8 + w.code < _; omega), keyLength, varintLength,
    varintLength, log2_or_one, log2_or_one, hlog]

/-! ## Texts -/

/-- Bytes behind their length are read back. -/
theorem readDelimited_write {body : List UInt8} (h : body.length < 2 ^ 64) (rest : List UInt8) :
    readDelimited (.ofList (writeDelimited body ++ rest)) = .ok (body, .ofList rest) := by
  have hfits : body.length ≤ (Input.ofList (body ++ rest)).size := by simp
  rw [writeDelimited, List.append_assoc, readDelimited, readVarint_write h]
  show (if body.length ≤ (Input.ofList (body ++ rest)).size then
    return ((Input.ofList (body ++ rest)).take body.length,
      (Input.ofList (body ++ rest)).drop body.length) else fail .underflow) = _
  rw [if_pos hfits, Input.take_append, Input.drop_append]
  rfl

/-- A text behind its length is read back. -/
theorem readText_write {s : String} (h : (Text.Utf8.encode s).length < 2 ^ 64)
    (rest : List UInt8) :
    readText (.ofList (writeDelimited (Text.Utf8.encode s) ++ rest)) = .ok (s, .ofList rest) := by
  simp only [readText, readDelimited_write h, bind, Except.bind, Text.Utf8.decode_encode]
  rfl

/-- A body takes its length in bytes and what its length takes. -/
theorem length_writeDelimited {body : List UInt8} (h : body.length < 2 ^ 64) :
    (writeDelimited body).length = delimitedLength body.length := by
  rw [writeDelimited, List.length_append, length_writeVarint h, delimitedLength]

theorem length_le_writeDelimited (body : List UInt8) :
    body.length ≤ (writeDelimited body).length := by
  rw [writeDelimited, List.length_append]
  omega

/-- A text field takes the bytes that were told. -/
theorem length_writeTextField {tag : Nat} {s : String} (htag : ProperTag tag)
    (h : (writeTextField tag s).length < 2 ^ 63) :
    (writeTextField tag s).length = textFieldLength tag s := by
  by_cases hs : s.isEmpty
  · rw [writeTextField, if_pos hs, textFieldLength, if_pos hs]
    rfl
  · rw [writeTextField, if_neg hs, List.length_append] at h ⊢
    have hbody := length_le_writeDelimited (Text.Utf8.encode s)
    rw [textFieldLength, if_neg hs, length_key htag, length_writeDelimited (by omega)]

end SandboxPool.Wire
