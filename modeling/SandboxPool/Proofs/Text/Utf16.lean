import SandboxPool.Proofs.Text.Utf8
import SandboxPool.Text.Utf16

/-!
# The units of a text stand for that text, and nothing else does

A character is one unit or two, and the reader tells from a unit alone whether it is a first half,
a second half or a character of its own. So it reads back exactly what characters were written as;
what it refuses has a half without its partner (`Utf16.Unpaired`).
-/

namespace SandboxPool.Text.Utf16

/-! ## Units as numbers -/

variable {u high low : UInt16} {c : Char} {cs done : List Char} {units rest : List UInt16}
  {data : List UInt8}

theorem toNat_ofNat {n : Nat} (h : n < 0x10000) : (UInt16.ofNat n).toNat = n :=
  UInt16.toNat_ofNat_of_lt' h

theorem isHigh_iff : isHigh u = true ↔ 0xd800 ≤ u.toNat ∧ u.toNat < 0xdc00 := by
  simp [isHigh, UInt16.le_iff_toNat_le, UInt16.lt_iff_toNat_lt]

theorem isLow_iff : isLow u = true ↔ 0xdc00 ≤ u.toNat ∧ u.toNat < 0xe000 := by
  simp [isLow, UInt16.le_iff_toNat_le, UInt16.lt_iff_toNat_lt]

/-- No unit is the first and the second half of a pair. -/
theorem not_isLow_of_isHigh (h : isHigh u = true) : ¬ isLow u = true := by
  rw [isHigh_iff] at h
  rw [isLow_iff]
  omega

/-- A character is a unit that is no half, or two halves. -/
theorem encodeChar_cases (c : Char) :
    (∃ u, encodeChar c = [u] ∧ ¬ isHigh u = true ∧ ¬ isLow u = true ∧ Char.ofNat u.toNat = c) ∨
    ∃ high low, encodeChar c = [high, low] ∧ isHigh high = true ∧ isLow low = true ∧
      pairChar high low = c := by
  have hvalid : c.toNat < 0xd800 ∨ 0xdfff < c.toNat ∧ c.toNat < 0x110000 := c.valid
  have hback : Char.ofNat c.toNat = c := Char.ofNat_toNat c
  -- One unit below 65536, and above it a pair, high before low.
  unfold encodeChar
  split
  · next hsmall =>
    refine .inl ⟨_, rfl, ?_, ?_, ?_⟩
    · rw [isHigh_iff, toNat_ofNat hsmall]
      omega
    · rw [isLow_iff, toNat_ofNat hsmall]
      omega
    · rw [toNat_ofNat hsmall, hback]
  · next hlarge =>
    refine .inr ⟨_, _, rfl, ?_, ?_, ?_⟩
    · rw [isHigh_iff, toNat_ofNat (by omega)]
      omega
    · rw [isLow_iff, toNat_ofNat (by omega)]
      omega
    · rw [pairChar, toNat_ofNat (by omega), toNat_ofNat (by omega)]
      refine Eq.trans (congrArg Char.ofNat ?_) hback
      omega

/-! ## Units stand for the characters that were written -/

/-- A unit that is no half is a character. -/
theorem encodeChar_single (hhigh : ¬ isHigh u = true) (hlow : ¬ isLow u = true) :
    encodeChar (Char.ofNat u.toNat) = [u] := by
  have hsmall : u.toNat < 0x10000 := u.toNat_lt
  rw [isHigh_iff] at hhigh
  rw [isLow_iff] at hlow
  rw [encodeChar, char_toNat_ofNat (by unfold Nat.isValidChar; omega), if_pos hsmall,
    UInt16.ofNat_toNat]

/-- Two halves are a character. -/
theorem encodeChar_pairChar (hhigh : isHigh high = true) (hlow : isLow low = true) :
    encodeChar (pairChar high low) = [high, low] := by
  rw [isHigh_iff] at hhigh
  rw [isLow_iff] at hlow
  rw [encodeChar, pairChar, char_toNat_ofNat (.inr (by omega)), if_neg (by omega)]
  have hfirst : 0xd800 + (0x10000 + (high.toNat - 0xd800) * 0x400 + (low.toNat - 0xdc00) -
      0x10000) / 0x400 = high.toNat := by omega
  have hsecond : 0xdc00 + (0x10000 + (high.toNat - 0xd800) * 0x400 + (low.toNat - 0xdc00) -
      0x10000) % 0x400 = low.toNat := by omega
  rw [hfirst, hsecond, UInt16.ofNat_toNat, UInt16.ofNat_toNat]

theorem decodeFrom_encodeChar (done : List Char) (c : Char) (rest : List UInt16) :
    decodeFrom done none (encodeChar c ++ rest) = decodeFrom (c :: done) none rest := by
  rcases encodeChar_cases c with ⟨u, hwritten, hnoHigh, hnoLow, rfl⟩ |
    ⟨high, low, hwritten, hisHigh, hisLow, rfl⟩
  · rw [hwritten, List.singleton_append, decodeFrom, if_neg hnoHigh, if_neg hnoLow]
  · rw [hwritten, List.cons_append, List.singleton_append, decodeFrom, if_pos hisHigh, decodeFrom,
      if_pos hisLow]

/-- The units of characters are those characters. -/
theorem decodeFrom_encodeChars (done cs : List Char) :
    decodeFrom done none (encodeChars cs) = some (done.reverse ++ cs) := by
  induction cs generalizing done with
  | nil => rw [List.append_nil]; rfl
  | cons c cs ih =>
    have hfront : encodeChars (c :: cs) = encodeChar c ++ encodeChars cs := rfl
    rw [hfront, decodeFrom_encodeChar, ih, List.reverse_cons, List.append_assoc]
    rfl

/-- The units of the characters that were read are the units that were there. -/
theorem decodeFrom_eq_some {high? : Option UInt16}
    (hread : decodeFrom done high? units = some cs) (hhalves : ∀ h ∈ high?, isHigh h = true) :
    ∃ more, cs = done.reverse ++ more ∧ encodeChars more = high?.toList ++ units := by
  -- A high half is kept aside until the unit after it is read.
  fun_induction decodeFrom done high? units with
  | case1 done => exact ⟨[], by rw [List.append_nil, Option.some.inj hread], rfl⟩
  | case2 => cases hread
  | case3 done u rest hisHigh ih =>
    exact ih hread (fun _ hgiven => Option.some.inj hgiven ▸ hisHigh)
  | case4 => cases hread
  | case5 done u rest hnoHigh hnoLow ih =>
    obtain ⟨more, rfl, hunits⟩ := ih hread nofun
    refine ⟨Char.ofNat u.toNat :: more, by simp, ?_⟩
    show encodeChar _ ++ encodeChars more = _
    rw [encodeChar_single hnoHigh hnoLow, hunits]
    rfl
  | case6 done high u rest hisLow ih =>
    obtain ⟨more, rfl, hunits⟩ := ih hread nofun
    refine ⟨pairChar high u :: more, by simp, ?_⟩
    show encodeChar _ ++ encodeChars more = _
    rw [encodeChar_pairChar (hhalves high rfl) hisLow, hunits]
    rfl
  | case7 => cases hread

/-- Units are read as characters just when they are those characters' units. -/
theorem decodeChars_eq_some : decodeChars units = some cs ↔ encodeChars cs = units := by
  constructor
  · intro hread
    obtain ⟨more, rfl, hsame⟩ := decodeFrom_eq_some hread nofun
    exact hsame
  · rintro rfl
    exact decodeFrom_encodeChars [] cs

/-! ## Halves without a partner -/

/-- Somewhere in the units a first half has no second half behind it, or a second half has no
first half before it. -/
def Unpaired (units : List UInt16) : Prop :=
  ∃ before u after, units = before ++ u :: after ∧
    (isHigh u = true ∧ ¬ after.head?.any isLow = true ∨
      isLow u = true ∧ ¬ before.getLast?.any isHigh = true)

/-- What goes before, if it ends in no first half, leaves the units behind it alone. -/
theorem any_getLast?_cons (hnoHigh : ¬ isHigh u = true) (before : List UInt16) :
    (u :: before).getLast?.any isHigh = before.getLast?.any isHigh := by
  cases before with
  | nil => simpa using hnoHigh
  | cons v before => rw [List.getLast?_cons_cons]

/-- A character has the partners in it. -/
theorem Unpaired.of_encodeChar (h : Unpaired (encodeChar c ++ rest)) : Unpaired rest := by
  obtain ⟨before, u, after, hsplit, halone⟩ := h
  -- the lonely half is behind the character, however many units that has
  rcases encodeChar_cases c with ⟨v, hwritten, hnoHigh, hnoLow, -⟩ |
    ⟨high, low, hwritten, hisHigh, hisLow, -⟩
  · rw [hwritten] at hsplit
    match before with
    | [] =>
      obtain ⟨rfl, rfl⟩ := List.cons.inj hsplit
      rcases halone with ⟨hisHigh, -⟩ | ⟨hisLow, -⟩
      · exact absurd hisHigh hnoHigh
      · exact absurd hisLow hnoLow
    | _ :: before =>
      obtain ⟨rfl, rfl⟩ := List.cons.inj hsplit
      rw [any_getLast?_cons hnoHigh] at halone
      exact ⟨before, u, after, rfl, halone⟩
  · rw [hwritten] at hsplit
    have hnoHigh : ¬ Utf16.isHigh low = true := fun hisHigh => not_isLow_of_isHigh hisHigh hisLow
    match before with
    | [] =>
      obtain ⟨rfl, rfl⟩ := List.cons.inj hsplit
      rcases halone with ⟨-, hpartner⟩ | ⟨hisLow, -⟩
      · exact absurd hisLow hpartner
      · exact absurd hisLow (not_isLow_of_isHigh hisHigh)
    | [_] =>
      obtain ⟨rfl, htail⟩ := List.cons.inj hsplit
      obtain ⟨rfl, rfl⟩ := List.cons.inj htail
      rcases halone with ⟨hisHigh, -⟩ | ⟨-, hpartner⟩
      · exact absurd hisHigh hnoHigh
      · exact absurd hisHigh hpartner
    | _ :: _ :: before =>
      obtain ⟨rfl, htail⟩ := List.cons.inj hsplit
      obtain ⟨rfl, rfl⟩ := List.cons.inj htail
      rw [List.getLast?_cons_cons, any_getLast?_cons hnoHigh] at halone
      exact ⟨before, u, after, rfl, halone⟩

theorem not_unpaired_encodeChars (cs : List Char) : ¬ Unpaired (encodeChars cs) := by
  induction cs with
  | nil =>
    rintro ⟨before, u, after, hsplit, -⟩
    exact List.append_ne_nil_of_right_ne_nil before (List.cons_ne_nil u after) hsplit.symm
  | cons c cs ih => exact fun h => ih h.of_encodeChar

/-- What is refused, after units that end in no first half, has a half without its partner. -/
theorem unpaired_of_decodeFrom {high? : Option UInt16} {before : List UInt16}
    (hrefused : decodeFrom done high? units = none) (hhalves : ∀ h ∈ high?, isHigh h = true)
    (hclosed : ¬ before.getLast?.any isHigh = true) :
    Unpaired (before ++ high?.toList ++ units) := by
  -- `before` grows by whole characters, so that it never ends in a first half
  fun_induction decodeFrom done high? units generalizing before with
  | case1 => cases hrefused
  | case2 done high => exact ⟨before, high, [], by simp, .inl ⟨hhalves high rfl, by simp⟩⟩
  | case3 done u rest hisHigh ih =>
    have halone := ih hrefused (fun _ hgiven => Option.some.inj hgiven ▸ hisHigh) hclosed
    simpa using halone
  | case4 done u rest hnoHigh hisLow => exact ⟨before, u, rest, by simp, .inr ⟨hisLow, hclosed⟩⟩
  | case5 done u rest hnoHigh hnoLow ih =>
    have halone : Unpaired (before ++ [u] ++ [] ++ rest) :=
      ih hrefused nofun (by simpa using hnoHigh)
    simpa using halone
  | case6 done high u rest hisLow ih =>
    have hnoHigh : ¬ isHigh u = true := fun hisHigh => not_isLow_of_isHigh hisHigh hisLow
    have halone : Unpaired (before ++ [high, u] ++ [] ++ rest) :=
      ih hrefused nofun (by simpa using hnoHigh)
    simpa using halone
  | case7 done high u rest hnoLow =>
    exact ⟨before, high, u :: rest, by simp, .inl ⟨hhalves high rfl, by simpa using hnoLow⟩⟩

/-- Units are refused just when some half among them has no partner. -/
theorem decodeChars_eq_none : decodeChars units = none ↔ Unpaired units := by
  constructor
  · intro hrefused
    have hclosed : ¬ ([] : List UInt16).getLast?.any isHigh = true := Bool.false_ne_true
    exact unpaired_of_decodeFrom hrefused nofun hclosed
  · intro halone
    refine Option.eq_none_iff_forall_ne_some.mpr fun cs hread => ?_
    rw [← decodeChars_eq_some.mp hread] at halone
    exact not_unpaired_encodeChars cs halone

/-! ## Bytes of units -/

@[simp] theorem length_bytes (units : List UInt16) : (bytes units).length = 2 * units.length := by
  induction units with
  | nil => rfl
  | cons u units ih =>
    have hfront : bytes (u :: units) = UInt8.ofNat (u.toNat % 256) :: UInt8.ofNat (u.toNat / 256) ::
        bytes units := rfl
    rw [hfront, List.length_cons, List.length_cons, List.length_cons, ih]
    omega

/-- Units are read back from their bytes. -/
theorem ofBytes_bytes (units : List UInt16) : ofBytes (bytes units) = units := by
  induction units with
  | nil => rfl
  | cons u units ih =>
    have hsmall : u.toNat < 0x10000 := u.toNat_lt
    have hlow : (UInt8.ofNat (u.toNat % 256)).toNat = u.toNat % 256 :=
      UInt8.toNat_ofNat_of_lt' (Nat.mod_lt _ (by decide))
    have hhigh : (UInt8.ofNat (u.toNat / 256)).toNat = u.toNat / 256 :=
      UInt8.toNat_ofNat_of_lt' (by show _ < 256; omega)
    have hwhole : u.toNat % 256 + u.toNat / 256 * 256 = u.toNat := by omega
    show UInt16.ofNat _ :: ofBytes (bytes units) = _
    rw [hlow, hhigh, hwhole, ih, UInt16.ofNat_toNat]

/-- Bytes of even number are the bytes of their units. -/
theorem bytes_ofBytes (heven : data.length % 2 = 0) : bytes (ofBytes data) = data := by
  fun_induction ofBytes data with
  | case1 low high rest ih =>
    have hlow := low.toNat_lt
    have hhigh := high.toNat_lt
    have hnumber : (UInt16.ofNat (low.toNat + high.toNat * 256)).toNat =
        low.toNat + high.toNat * 256 := toNat_ofNat (by omega)
    have hfirst : (low.toNat + high.toNat * 256) % 256 = low.toNat := by omega
    have hsecond : (low.toNat + high.toNat * 256) / 256 = high.toNat := by omega
    show UInt8.ofNat _ :: UInt8.ofNat _ :: bytes (ofBytes rest) = _
    rw [hnumber, hfirst, hsecond, UInt8.ofNat_toNat, UInt8.ofNat_toNat, ih]
    simp only [List.length_cons] at heven
    omega
  -- Fewer than two bytes are left, and one would make the length odd.
  | case2 data hshort =>
    match data with
    | [] => rfl
    | [_] => cases heven
    | low :: high :: rest => exact absurd rfl (hshort low high rest)

/-! ## Texts -/

/-- An even number of bytes is read as a text just when they are that text's bytes. -/
theorem decode_eq_some {s : String} (heven : data.length % 2 = 0) :
    decode data = some s ↔ encode s = data := by
  rw [decode, Option.map_eq_some_iff]
  constructor
  · rintro ⟨cs, hread, rfl⟩
    rw [encode, String.toList_ofList, decodeChars_eq_some.mp hread, bytes_ofBytes heven]
  · rintro rfl
    refine ⟨s.toList, ?_, String.ofList_toList⟩
    rw [decodeChars_eq_some, encode, ofBytes_bytes]

/-- Bytes are refused if a half of a pair stands alone in them. -/
theorem decode_eq_none : decode data = none ↔ Unpaired (ofBytes data) := by
  rw [decode, Option.map_eq_none_iff, decodeChars_eq_none]

@[simp] theorem length_encode (s : String) :
    (encode s).length = 2 * (encodeChars s.toList).length :=
  length_bytes _

/-- Different texts have different bytes. -/
theorem encode_injective : Function.Injective encode := by
  intro s t hsame
  have heven : (encode t).length % 2 = 0 := by rw [length_encode]; omega
  have hread := (decode_eq_some heven).mpr hsame
  exact (Option.some.inj (((decode_eq_some heven).mpr rfl).symm.trans hread)).symm

end SandboxPool.Text.Utf16
