import Mathlib.Tactic.SplitIfs
import SandboxPool.Text.Utf8

/-!
# The bytes of a text stand for that text, and no other bytes do

The reader keeps its place between two bytes, so the statement is one about a single character
first: its bytes, met between two characters, are gone past and leave it behind. A character takes
one to four bytes, and each length has its own first bytes; the ranges of the second byte are what
a code point of that length leaves for it.

The other way round, the reader's state inside a character remembers the bytes that led there
(`Utf8.Begins`), and with the last of them they are the bytes of the character that it adds.
-/

namespace SandboxPool.Text

/-- The code point of the character that a code point stands for. -/
theorem char_toNat_ofNat {v : Nat} (h : v.isValidChar) : (Char.ofNat v).toNat = v := by
  rw [Char.ofNat, dif_pos h]
  rfl

namespace Utf8

/-! ## Bytes as numbers -/

theorem toNat_ofNat {n : Nat} (h : n < 0x100) : (UInt8.ofNat n).toNat = n :=
  UInt8.toNat_ofNat_of_lt' h

theorem ofNat_lt {n : Nat} (h : n < 0x100) (b : UInt8) : UInt8.ofNat n < b ↔ n < b.toNat := by
  rw [UInt8.lt_iff_toNat_lt, toNat_ofNat h]

theorem ofNat_eq {n : Nat} (h : n < 0x100) (b : UInt8) : UInt8.ofNat n = b ↔ n = b.toNat := by
  rw [← UInt8.toNat_inj, toNat_ofNat h]

theorem extend_ofNat (l : Lead) {n : Nat} (h : n < 0x100) :
    l.extend (UInt8.ofNat n) = l.code * 64 + (n - 0x80) :=
  congrArg (fun k => l.code * 64 + (k - 0x80)) (toNat_ofNat h)

/-! ## First bytes -/

/-- The ranges of first bytes, as numbers. -/
theorem ofByte_ofNat {n : Nat} (hn : n < 0x100) : Start.ofByte (UInt8.ofNat n) =
    if n < 0x80 then .single (Char.ofNat n)
    else if n < 0xc2 then .stray
    else if n < 0xe0 then .lead ⟨1, 1, 0x80, 0xbf, n - 0xc0⟩
    else if n = 0xe0 then .lead ⟨1, 2, 0xa0, 0xbf, 0⟩
    else if n = 0xed then .lead ⟨1, 2, 0x80, 0x9f, 0xd⟩
    else if n < 0xf0 then .lead ⟨1, 2, 0x80, 0xbf, n - 0xe0⟩
    else if n = 0xf0 then .lead ⟨1, 3, 0x90, 0xbf, 0⟩
    else if n < 0xf4 then .lead ⟨1, 3, 0x80, 0xbf, n - 0xf0⟩
    else if n = 0xf4 then .lead ⟨1, 3, 0x80, 0x8f, 4⟩
    else .stray := by
  simp only [Start.ofByte, ofNat_lt hn, ofNat_eq hn, UInt8.reduceToNat, toNat_ofNat hn]

theorem ofByte_single {n : Nat} (h : n < 0x80) :
    Start.ofByte (UInt8.ofNat n) = .single (Char.ofNat n) := by
  rw [ofByte_ofNat (by omega), if_pos h]

/-- Bytes that begin no character. -/
theorem ofByte_stray {n : Nat} (h : 0x80 ≤ n ∧ n < 0xc2 ∨ 0xf5 ≤ n ∧ n < 0x100) :
    Start.ofByte (UInt8.ofNat n) = .stray := by
  rw [ofByte_ofNat (by omega), if_neg (by omega)]
  rcases h with ⟨-, hbelow⟩ | ⟨habove, -⟩
  · rw [if_pos hbelow]
  · iterate 8 rw [if_neg (by omega)]

/-- The first byte of a character of two bytes. -/
theorem ofByte_two {n : Nat} (hl : 0xc2 ≤ n) (hh : n < 0xe0) :
    Start.ofByte (UInt8.ofNat n) = .lead ⟨1, 1, 0x80, 0xbf, n - 0xc0⟩ := by
  rw [ofByte_ofNat (by omega), if_neg (by omega), if_neg (by omega), if_pos hh]

/-- The first byte of a character of three bytes. Its second byte may not begin a shorter form,
nor a surrogate. -/
theorem ofByte_three {n : Nat} (hl : 0xe0 ≤ n) (hh : n < 0xf0) :
    Start.ofByte (UInt8.ofNat n) =
      .lead ⟨1, 2, if n = 0xe0 then 0xa0 else 0x80, if n = 0xed then 0x9f else 0xbf, n - 0xe0⟩ := by
  rw [ofByte_ofNat (by omega), if_neg (by omega), if_neg (by omega), if_neg (by omega)]
  by_cases he0 : n = 0xe0
  · subst he0
    rfl
  by_cases hed : n = 0xed
  · subst hed
    rfl
  rw [if_neg he0, if_neg hed, if_pos hh, if_neg he0, if_neg hed]

/-- The first byte of a character of four bytes. Its second byte may not begin a shorter form, nor
a number above the last code point. -/
theorem ofByte_four {n : Nat} (hl : 0xf0 ≤ n) (hh : n < 0xf5) :
    Start.ofByte (UInt8.ofNat n) =
      .lead ⟨1, 3, if n = 0xf0 then 0x90 else 0x80, if n = 0xf4 then 0x8f else 0xbf, n - 0xf0⟩ := by
  rw [ofByte_ofNat (by omega)]
  iterate 6 rw [if_neg (by omega)]
  by_cases hf0 : n = 0xf0
  · subst hf0
    rfl
  by_cases hf4 : n = 0xf4
  · subst hf4
    rfl
  rw [if_neg hf0, if_pos (by omega), if_neg hf0, if_neg hf4]

/-! ## Reading on -/

section

variable (done : List Char) (index : Nat) (rest : List UInt8)

theorem decodeFrom_single {n : Nat} (h : n < 0x80) :
    decodeFrom done index none (UInt8.ofNat n :: rest) =
      decodeFrom (Char.ofNat n :: done) (index + 1) none rest := by
  rw [decodeFrom, ofByte_single h]

theorem decodeFrom_lead {n : Nat} {l : Lead} (h : Start.ofByte (UInt8.ofNat n) = .lead l) :
    decodeFrom done index none (UInt8.ofNat n :: rest) = decodeFrom done index (some l) rest := by
  rw [decodeFrom, h]

/-- The last byte of a character. -/
theorem decodeFrom_last {n code seen : Nat} {low high : UInt8} (hl : low.toNat ≤ n)
    (hh : n ≤ high.toNat) :
    decodeFrom done index (some ⟨seen, 1, low, high, code⟩) (UInt8.ofNat n :: rest) =
      decodeFrom (Char.ofNat (code * 64 + (n - 0x80)) :: done) (index + seen + 1) none rest := by
  have hn : n < 0x100 := by have := high.toNat_lt; omega
  have hrange : low ≤ UInt8.ofNat n ∧ UInt8.ofNat n ≤ high := by
    rw [UInt8.le_iff_toNat_le, UInt8.le_iff_toNat_le, toNat_ofNat hn]
    exact ⟨hl, hh⟩
  rw [decodeFrom, if_pos hrange, if_pos rfl, extend_ofNat _ hn]

/-- A byte in the middle of a character. -/
theorem decodeFrom_more {n code seen missing : Nat} {low high : UInt8} (hl : low.toNat ≤ n)
    (hh : n ≤ high.toNat) (hm : missing ≠ 0) :
    decodeFrom done index (some ⟨seen, missing + 1, low, high, code⟩) (UInt8.ofNat n :: rest) =
      decodeFrom done index
        (some ⟨seen + 1, missing, 0x80, 0xbf, code * 64 + (n - 0x80)⟩) rest := by
  have hn : n < 0x100 := by have := high.toNat_lt; omega
  have hrange : low ≤ UInt8.ofNat n ∧ UInt8.ofNat n ≤ high := by
    rw [UInt8.le_iff_toNat_le, UInt8.le_iff_toNat_le, toNat_ofNat hn]
    exact ⟨hl, hh⟩
  have hmore : ¬ missing + 1 = 1 := by omega
  rw [decodeFrom, if_pos hrange, if_neg hmore, extend_ofNat _ hn]
  rfl

/-- A character of two bytes. -/
theorem decodeFrom_two {v : Nat} (hl : 0x80 ≤ v) (hh : v < 0x800) :
    decodeFrom done index none
      (UInt8.ofNat (v / 64 % 32 + 192) :: UInt8.ofNat (v % 64 + 128) :: rest) =
      decodeFrom (Char.ofNat v :: done) (index + 2) none rest := by
  have hcode : (v / 64 % 32 + 192 - 0xc0) * 64 + (v % 64 + 128 - 0x80) = v := by omega
  rw [decodeFrom_lead _ _ _ (ofByte_two (by omega) (by omega)),
    decodeFrom_last _ _ _ (by simp) (by simp; omega), hcode]

/-- A character of three bytes, which is no surrogate. -/
theorem decodeFrom_three {v : Nat} (hl : 0x800 ≤ v) (hh : v < 0x10000)
    (hvalid : v < 0xd800 ∨ 0xdfff < v) :
    decodeFrom done index none (UInt8.ofNat (v / 4096 % 16 + 224) ::
      UInt8.ofNat (v / 64 % 64 + 128) :: UInt8.ofNat (v % 64 + 128) :: rest) =
      decodeFrom (Char.ofNat v :: done) (index + 3) none rest := by
  -- the second byte keeps the distance that the first one asks for
  have hlow : (if v / 4096 % 16 + 224 = 0xe0 then (0xa0 : UInt8) else 0x80).toNat
      ≤ v / 64 % 64 + 128 := by
    split_ifs <;> simp
    omega
  have hhigh : v / 64 % 64 + 128
      ≤ (if v / 4096 % 16 + 224 = 0xed then (0x9f : UInt8) else 0xbf).toNat := by
    split_ifs <;> simp <;> omega
  have hcode : ((v / 4096 % 16 + 224 - 0xe0) * 64 + (v / 64 % 64 + 128 - 0x80)) * 64 +
      (v % 64 + 128 - 0x80) = v := by omega
  rw [decodeFrom_lead _ _ _ (ofByte_three (by omega) (by omega)),
    decodeFrom_more _ _ _ hlow hhigh (by omega),
    decodeFrom_last _ _ _ (by simp) (by simp; omega), hcode]

/-- A character of four bytes. -/
theorem decodeFrom_four {v : Nat} (hl : 0x10000 ≤ v) (hh : v < 0x110000) :
    decodeFrom done index none (UInt8.ofNat (v / 262144 % 8 + 240) ::
      UInt8.ofNat (v / 4096 % 64 + 128) :: UInt8.ofNat (v / 64 % 64 + 128) ::
      UInt8.ofNat (v % 64 + 128) :: rest) =
      decodeFrom (Char.ofNat v :: done) (index + 4) none rest := by
  have hlow : (if v / 262144 % 8 + 240 = 0xf0 then (0x90 : UInt8) else 0x80).toNat
      ≤ v / 4096 % 64 + 128 := by
    split_ifs <;> simp
    omega
  have hhigh : v / 4096 % 64 + 128
      ≤ (if v / 262144 % 8 + 240 = 0xf4 then (0x8f : UInt8) else 0xbf).toNat := by
    split_ifs <;> simp <;> omega
  have hcode : (((v / 262144 % 8 + 240 - 0xf0) * 64 + (v / 4096 % 64 + 128 - 0x80)) * 64 +
      (v / 64 % 64 + 128 - 0x80)) * 64 + (v % 64 + 128 - 0x80) = v := by omega
  rw [decodeFrom_lead _ _ _ (ofByte_four (by omega) (by omega)),
    decodeFrom_more _ _ _ hlow hhigh (by omega),
    decodeFrom_more _ _ _ (by simp) (by simp; omega) (by omega),
    decodeFrom_last _ _ _ (by simp) (by simp; omega), hcode]

end

/-! ## Characters and texts -/

/-- The bytes of a character, between two characters, are that character. -/
theorem decodeFrom_char (done : List Char) (index : Nat) (c : Char) (rest : List UInt8) :
    ∃ index', decodeFrom done index none (String.utf8EncodeChar c ++ rest) =
      decodeFrom (c :: done) index' none rest := by
  have hvalid : c.val.toNat < 0xd800 ∨ 0xdfff < c.val.toNat ∧ c.val.toNat < 0x110000 := c.valid
  have hc : Char.ofNat c.val.toNat = c := Char.ofNat_toNat c
  rw [String.utf8EncodeChar]
  generalize c.val.toNat = v at hvalid hc
  rw [← hc]
  show ∃ index', decodeFrom done index none ((if v ≤ 127 then _ else _) ++ rest) = _
  split_ifs with h1 h2 h3
  · exact ⟨_, decodeFrom_single done index rest (by omega)⟩
  · exact ⟨_, decodeFrom_two done index rest (by omega) (by omega)⟩
  · exact ⟨_, decodeFrom_three done index rest (by omega) (by omega) (by omega)⟩
  · exact ⟨_, decodeFrom_four done index rest (by omega) (by omega)⟩

/-- The bytes of characters are those characters. -/
theorem decodeFrom_chars (done : List Char) (index : Nat) (cs : List Char) :
    decodeFrom done index none (cs.flatMap String.utf8EncodeChar) = .ok (done.reverse ++ cs) := by
  induction cs generalizing done index with
  | nil => rw [List.append_nil]; rfl
  | cons c cs ih =>
    obtain ⟨index', h⟩ := decodeFrom_char done index c (cs.flatMap String.utf8EncodeChar)
    rw [List.flatMap_cons, h, ih, List.reverse_cons, List.append_assoc]
    rfl

/-- A text is read back from its bytes. -/
theorem decode_encode (s : String) : decode (encode s) = .ok s := by
  rw [decode, decodeChars, encode, decodeFrom_chars]
  show Except.ok (String.ofList s.toList) = _
  rw [String.ofList_toList]

/-! ## Reading is exact -/

section

variable {done : List Char} {index : Nat} {bytes read : List UInt8} {b : UInt8} {l : Lead}

/-- What a byte may be between two characters. -/
theorem ofByte_cases (b : UInt8) :
    (b.toNat < 0x80 ∧ Start.ofByte b = .single (Char.ofNat b.toNat)) ∨ Start.ofByte b = .stray ∨
    (0xc2 ≤ b.toNat ∧ b.toNat < 0xe0 ∧ Start.ofByte b = .lead ⟨1, 1, 0x80, 0xbf, b.toNat - 0xc0⟩) ∨
    (0xe0 ≤ b.toNat ∧ b.toNat < 0xf0 ∧ Start.ofByte b =
      .lead ⟨1, 2, if b.toNat = 0xe0 then 0xa0 else 0x80,
        if b.toNat = 0xed then 0x9f else 0xbf, b.toNat - 0xe0⟩) ∨
    (0xf0 ≤ b.toNat ∧ b.toNat < 0xf5 ∧ Start.ofByte b =
      .lead ⟨1, 3, if b.toNat = 0xf0 then 0x90 else 0x80,
        if b.toNat = 0xf4 then 0x8f else 0xbf, b.toNat - 0xf0⟩) := by
  have hb : UInt8.ofNat b.toNat = b := UInt8.ofNat_toNat
  have hsmall : b.toNat < 0x100 := b.toNat_lt
  generalize b.toNat = n at hb hsmall ⊢
  subst hb
  by_cases h80 : n < 0x80
  · exact .inl ⟨h80, ofByte_single h80⟩
  by_cases hstray : n < 0xc2 ∨ 0xf5 ≤ n
  · exact .inr (.inl (ofByte_stray (by omega)))
  by_cases he0 : n < 0xe0
  · exact .inr (.inr (.inl ⟨by omega, he0, ofByte_two (by omega) he0⟩))
  by_cases hf0 : n < 0xf0
  · exact .inr (.inr (.inr (.inl ⟨by omega, hf0, ofByte_three (by omega) hf0⟩)))
  · exact .inr (.inr (.inr (.inr ⟨by omega, by omega, ofByte_four (by omega) (by omega)⟩)))

/-- A byte that is a character of its own. -/
theorem ofByte_eq_single {c : Char} (h : Start.ofByte b = .single c) :
    b.toNat < 0x80 ∧ c = Char.ofNat b.toNat := by
  rcases ofByte_cases b with ⟨hsmall, hsame⟩ | hsame | ⟨-, -, hsame⟩ | ⟨-, -, hsame⟩ |
    ⟨-, -, hsame⟩ <;>
    cases hsame.symm.trans h
  exact ⟨hsmall, rfl⟩

/-- A byte that begins a longer character. -/
theorem ofByte_eq_lead (h : Start.ofByte b = .lead l) :
    (0xc2 ≤ b.toNat ∧ b.toNat < 0xe0 ∧ l = ⟨1, 1, 0x80, 0xbf, b.toNat - 0xc0⟩) ∨
    (0xe0 ≤ b.toNat ∧ b.toNat < 0xf0 ∧ l = ⟨1, 2, if b.toNat = 0xe0 then 0xa0 else 0x80,
      if b.toNat = 0xed then 0x9f else 0xbf, b.toNat - 0xe0⟩) ∨
    (0xf0 ≤ b.toNat ∧ b.toNat < 0xf5 ∧ l = ⟨1, 3, if b.toNat = 0xf0 then 0x90 else 0x80,
      if b.toNat = 0xf4 then 0x8f else 0xbf, b.toNat - 0xf0⟩) := by
  rcases ofByte_cases b with ⟨-, hsame⟩ | hsame | ⟨hlow, hhigh, hsame⟩ | ⟨hlow, hhigh, hsame⟩ |
    ⟨hlow, hhigh, hsame⟩ <;> cases hsame.symm.trans h
  · exact .inl ⟨hlow, hhigh, rfl⟩
  · exact .inr (.inl ⟨hlow, hhigh, rfl⟩)
  · exact .inr (.inr ⟨hlow, hhigh, rfl⟩)

/-- The bytes of the character with the code point `v`. -/
theorem utf8EncodeChar_ofNat {v : Nat} (h : v.isValidChar) :
    String.utf8EncodeChar (Char.ofNat v) =
      if v ≤ 127 then [UInt8.ofNat v]
      else if v ≤ 2047 then [UInt8.ofNat (v / 64 % 32 + 192), UInt8.ofNat (v % 64 + 128)]
      else if v ≤ 65535 then [UInt8.ofNat (v / 4096 % 16 + 224),
        UInt8.ofNat (v / 64 % 64 + 128), UInt8.ofNat (v % 64 + 128)]
      else [UInt8.ofNat (v / 262144 % 8 + 240), UInt8.ofNat (v / 4096 % 64 + 128),
        UInt8.ofNat (v / 64 % 64 + 128), UInt8.ofNat (v % 64 + 128)] := by
  have hv : (Char.ofNat v).val.toNat = v := char_toNat_ofNat h
  rw [String.utf8EncodeChar, hv]

theorem utf8EncodeChar_two {b₁ b₂ : UInt8} (h₁ : 0xc2 ≤ b₁.toNat ∧ b₁.toNat < 0xe0)
    (h₂ : 0x80 ≤ b₂ ∧ b₂ ≤ 0xbf) :
    String.utf8EncodeChar (Char.ofNat ((b₁.toNat - 0xc0) * 64 + (b₂.toNat - 0x80))) = [b₁, b₂] := by
  rw [UInt8.le_iff_toNat_le, UInt8.le_iff_toNat_le] at h₂
  simp only [UInt8.reduceToNat] at h₂
  generalize hv : (b₁.toNat - 0xc0) * 64 + (b₂.toNat - 0x80) = v
  have hfirst : v / 64 % 32 + 192 = b₁.toNat := by omega
  have hsecond : v % 64 + 128 = b₂.toNat := by omega
  rw [utf8EncodeChar_ofNat (.inl (by omega)), if_neg (by omega), if_pos (by omega), hfirst, hsecond]
  simp only [UInt8.ofNat_toNat]

/-- The second byte after `0xe0` or `0xed` keeps its distance from shorter forms and surrogates. -/
theorem utf8EncodeChar_three {b₁ b₂ b₃ : UInt8} (h₁ : 0xe0 ≤ b₁.toNat ∧ b₁.toNat < 0xf0)
    (h₂ : (if b₁.toNat = 0xe0 then 0xa0 else 0x80) ≤ b₂ ∧
      b₂ ≤ if b₁.toNat = 0xed then 0x9f else 0xbf)
    (h₃ : 0x80 ≤ b₃ ∧ b₃ ≤ 0xbf) :
    String.utf8EncodeChar (Char.ofNat
        (((b₁.toNat - 0xe0) * 64 + (b₂.toNat - 0x80)) * 64 + (b₃.toNat - 0x80))) =
      [b₁, b₂, b₃] := by
  rw [UInt8.le_iff_toNat_le, UInt8.le_iff_toNat_le] at h₂ h₃
  simp only [apply_ite UInt8.toNat, UInt8.reduceToNat] at h₂ h₃
  -- The bounds of the second byte rule out what is too long and what is a surrogate.
  have htail : 0x80 ≤ b₂.toNat ∧ b₂.toNat ≤ 0xbf := by split_ifs at h₂ <;> omega
  generalize hv : ((b₁.toNat - 0xe0) * 64 + (b₂.toNat - 0x80)) * 64 + (b₃.toNat - 0x80) = v
  have hlong : 0x800 ≤ v := by split_ifs at h₂ <;> omega
  have hvalid : v.isValidChar := by
    unfold Nat.isValidChar
    split_ifs at h₂ <;> omega
  -- Each byte is a digit of the number, with its mark.
  have hfirst : v / 4096 % 16 + 224 = b₁.toNat := by omega
  have hsecond : v / 64 % 64 + 128 = b₂.toNat := by omega
  have hthird : v % 64 + 128 = b₃.toNat := by omega
  rw [utf8EncodeChar_ofNat hvalid, if_neg (by omega), if_neg (by omega), if_pos (by omega), hfirst,
    hsecond, hthird]
  simp only [UInt8.ofNat_toNat]

/-- The second byte after `0xf0` or `0xf4` keeps its distance from shorter forms and from what is
no code point. -/
theorem utf8EncodeChar_four {b₁ b₂ b₃ b₄ : UInt8} (h₁ : 0xf0 ≤ b₁.toNat ∧ b₁.toNat < 0xf5)
    (h₂ : (if b₁.toNat = 0xf0 then 0x90 else 0x80) ≤ b₂ ∧
      b₂ ≤ if b₁.toNat = 0xf4 then 0x8f else 0xbf)
    (h₃ : 0x80 ≤ b₃ ∧ b₃ ≤ 0xbf) (h₄ : 0x80 ≤ b₄ ∧ b₄ ≤ 0xbf) :
    String.utf8EncodeChar (Char.ofNat
        ((((b₁.toNat - 0xf0) * 64 + (b₂.toNat - 0x80)) * 64 + (b₃.toNat - 0x80)) * 64 +
          (b₄.toNat - 0x80))) =
      [b₁, b₂, b₃, b₄] := by
  rw [UInt8.le_iff_toNat_le, UInt8.le_iff_toNat_le] at h₂ h₃ h₄
  simp only [apply_ite UInt8.toNat, UInt8.reduceToNat] at h₂ h₃ h₄
  -- The bounds of the second byte rule out what is too long and what is no character.
  have htail : 0x80 ≤ b₂.toNat ∧ b₂.toNat ≤ 0xbf := by split_ifs at h₂ <;> omega
  generalize hv : (((b₁.toNat - 0xf0) * 64 + (b₂.toNat - 0x80)) * 64 + (b₃.toNat - 0x80)) * 64 +
    (b₄.toNat - 0x80) = v
  have hlong : 0x10000 ≤ v := by split_ifs at h₂ <;> omega
  have hvalid : v.isValidChar := by
    unfold Nat.isValidChar
    split_ifs at h₂ <;> omega
  have hfirst : v / 262144 % 8 + 240 = b₁.toNat := by omega
  have hsecond : v / 4096 % 64 + 128 = b₂.toNat := by omega
  have hthird : v / 64 % 64 + 128 = b₃.toNat := by omega
  have hfourth : v % 64 + 128 = b₄.toNat := by omega
  rw [utf8EncodeChar_ofNat hvalid, if_neg (by omega), if_neg (by omega), if_neg (by omega), hfirst,
    hsecond, hthird, hfourth]
  simp only [UInt8.ofNat_toNat]

/-- The bytes `read` begin a character, and the reader is in the state `l` after them. -/
inductive Begins : List UInt8 → Lead → Prop where
  | first {b : UInt8} {l : Lead} (h : Start.ofByte b = .lead l) : Begins [b] l
  | more {read : List UInt8} {l : Lead} {b : UInt8} (hbefore : Begins read l)
      (hwithin : l.low ≤ b ∧ b ≤ l.high) (hgoing : l.missing ≠ 1) :
      Begins (read ++ [b]) ⟨l.seen + 1, l.missing - 1, 0x80, 0xbf, l.extend b⟩

/-- At most three bytes are to come. -/
theorem Begins.missing_le (h : Begins read l) : l.missing ≤ 3 := by
  induction h with
  | first h =>
    rcases ofByte_eq_lead h with ⟨-, -, rfl⟩ | ⟨-, -, rfl⟩ | ⟨-, -, rfl⟩ <;> simp
  | more _ _ _ ih => exact Nat.le_trans (Nat.sub_le _ _) ih

/-- With its last byte a character is complete: its bytes are those that were read. -/
theorem Begins.complete (h : Begins read l) (hwithin : l.low ≤ b ∧ b ≤ l.high)
    (hlast : l.missing = 1) :
    String.utf8EncodeChar (Char.ofNat (l.extend b)) = read ++ [b] := by
  cases h with
  | first h₁ =>
    rcases ofByte_eq_lead h₁ with ⟨hlow, hhigh, rfl⟩ | ⟨-, -, rfl⟩ | ⟨-, -, rfl⟩
    · exact utf8EncodeChar_two ⟨hlow, hhigh⟩ hwithin
    · cases hlast
    · cases hlast
  | more h hwithin₂ _ =>
    cases h with
    | first h₁ =>
      rcases ofByte_eq_lead h₁ with ⟨-, -, rfl⟩ | ⟨hlow, hhigh, rfl⟩ | ⟨-, -, rfl⟩
      · cases hlast
      · exact utf8EncodeChar_three ⟨hlow, hhigh⟩ hwithin₂ hwithin
      · cases hlast
    | more h hwithin₁ _ =>
      cases h with
      | first h₁ =>
        rcases ofByte_eq_lead h₁ with ⟨-, -, rfl⟩ | ⟨-, -, rfl⟩ | ⟨hlow, hhigh, rfl⟩
        · cases hlast
        · cases hlast
        · exact utf8EncodeChar_four ⟨hlow, hhigh⟩ hwithin₁ hwithin₂ hwithin
      | more h _ _ =>
        -- no character has a fifth byte
        have hfew := h.missing_le
        have hlast : _ - 1 - 1 - 1 = 1 := hlast
        omega

/-- What the reader has read of a character that it is inside of. -/
def Inside (read : List UInt8) : Option Lead → Prop
  | none => read = []
  | some l => Begins read l

/-- The bytes of the characters that were read are the bytes that were there. -/
theorem decodeFrom_eq_ok {open? : Option Lead} {cs : List Char}
    (hok : decodeFrom done index open? bytes = .ok cs) (hinside : Inside read open?) :
    ∃ more, cs = done.reverse ++ more ∧ more.flatMap String.utf8EncodeChar = read ++ bytes := by
  -- along the reader's own recursion; `read` is empty between characters
  fun_induction decodeFrom done index open? bytes generalizing read with
  | case1 done index =>
    refine ⟨[], ?_, ?_⟩
    · rw [List.append_nil, Except.ok.inj hok]
    · rw [show read = [] from hinside]
      rfl
  | case2 => cases hok
  | case3 done index b rest c hsingle ih =>
    obtain ⟨hsmall, rfl⟩ := ofByte_eq_single hsingle
    obtain ⟨more, rfl, hbytes⟩ := ih hok rfl
    refine ⟨Char.ofNat b.toNat :: more, by simp, ?_⟩
    rw [List.flatMap_cons, utf8EncodeChar_ofNat (.inl (by omega)), if_pos (by omega), hbytes,
      show read = [] from hinside, UInt8.ofNat_toNat]
    rfl
  | case4 done index b rest l hlead ih =>
    rw [show read = [] from hinside]
    exact ih hok (.first hlead)
  | case5 => cases hok
  | case6 done index l b rest hwithin hlast ih =>
    obtain ⟨more, rfl, hbytes⟩ := ih hok rfl
    refine ⟨Char.ofNat (l.extend b) :: more, by simp, ?_⟩
    rw [List.flatMap_cons, Begins.complete hinside hwithin hlast, hbytes, List.append_assoc]
    rfl
  | case7 done index l b rest hwithin hgoing ih =>
    obtain ⟨more, rfl, hbytes⟩ := ih hok (Begins.more hinside hwithin hgoing)
    exact ⟨more, rfl, by rw [hbytes, List.append_assoc]; rfl⟩
  | case8 => cases hok

/-- Bytes are read as a text just when they are that text's bytes. -/
theorem decode_eq_ok {s : String} : decode bytes = .ok s ↔ encode s = bytes := by
  constructor
  · intro hok
    rw [decode] at hok
    obtain ⟨cs, hchars, rfl⟩ : ∃ cs, decodeChars bytes = .ok cs ∧ String.ofList cs = s := by
      cases hchars : decodeChars bytes with
      | error fault => rw [hchars] at hok; cases hok
      | ok cs => rw [hchars] at hok; exact ⟨cs, rfl, Except.ok.inj hok⟩
    obtain ⟨more, rfl, hsame⟩ := decodeFrom_eq_ok hchars rfl
    rw [encode, String.toList_ofList]
    exact hsame
  · rintro rfl
    exact decode_encode s

end
end Utf8
end SandboxPool.Text
