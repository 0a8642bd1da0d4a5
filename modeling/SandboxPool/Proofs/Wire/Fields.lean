import SandboxPool.Proofs.Wire.Varint

/-!
# A field reads back what it wrote

A value is read field by field until its end is reached, so reading is a path of steps over the
bytes (`Reads`), and it is a path that a field's own bytes have to be. `Field.Faithful` says what
a field owes to the message types that hold it: over its own bytes the field goes from a message in
which it is blank to the one in which it holds what it held, and the length that it tells is the
number of those bytes.
-/

namespace SandboxPool.Wire

/-! ## Reading step by step -/

/-- Whatever follows the bytes, one `step` after another goes past them, from `a` to the last
state. Each step takes at least one byte. -/
inductive Reads {α : Type} (step : α → Input → Result (α × Input)) :
    α → List UInt8 → α → Prop
  | done (a : α) : Reads step a [] a
  | next {a b c : α} {chunk more : List UInt8} (hne : chunk ≠ [])
      (hstep : ∀ rest, step a (.ofList (chunk ++ rest)) = .ok (b, .ofList rest))
      (hmore : Reads step b more c) : Reads step a (chunk ++ more) c

namespace Reads

variable {α : Type} {step step' : α → Input → Result (α × Input)} {a b c : α}
  {bytes more : List UInt8}

theorem single (hne : bytes ≠ [])
    (hstep : ∀ rest, step a (.ofList (bytes ++ rest)) = .ok (b, .ofList rest)) :
    Reads step a bytes b := by
  rw [← List.append_nil bytes]
  exact .next hne hstep (.done b)

/-- What is read in two pieces is read in one. -/
theorem append (h : Reads step a bytes b) (hmore : Reads step b more c) :
    Reads step a (bytes ++ more) c := by
  induction h with
  | done => exact hmore
  | next hne hstep _ ih =>
    rw [List.append_assoc]
    exact .next hne hstep (ih hmore)

/-- A reader that does all that another does goes the same paths. -/
theorem mono (hmono : ∀ a i r, step a i = .ok r → step' a i = .ok r)
    (h : Reads step a bytes b) : Reads step' a bytes b := by
  induction h with
  | done a => exact .done a
  | next hne hstep _ ih => exact .next hne (fun rest => hmono _ _ _ (hstep rest)) ih

/-- The fields are read to the end of the value, whatever follows it. -/
theorem readUntil {fuel : Nat} (h : Reads step a bytes b) (hfuel : bytes.length ≤ fuel)
    (rest : List UInt8) :
    Wire.readUntil step rest.length fuel a (.ofList (bytes ++ rest)) = .ok (b, .ofList rest) := by
  -- By what is read: the fuel outlasts the bytes, since every step takes at least one.
  induction h generalizing fuel with
  | done a =>
    have hsize : (Input.ofList ([] ++ rest)).size = rest.length := rfl
    have hstop : ¬ rest.length < (Input.ofList ([] ++ rest)).size := by omega
    cases fuel with
    | zero =>
      rw [Wire.readUntil, if_pos hsize]
      rfl
    | succ fuel =>
      rw [Wire.readUntil, if_neg hstop, if_pos hsize]
      rfl
  | @next a b c chunk more hne hstep _ ih =>
    have hchunk : 0 < chunk.length := List.length_pos_iff.mpr hne
    have hlength : (chunk ++ more).length = chunk.length + more.length := List.length_append
    obtain ⟨fuel, rfl⟩ : ∃ k, fuel = k + 1 := ⟨fuel - 1, by omega⟩
    have hleft : rest.length < (Input.ofList (chunk ++ (more ++ rest))).size := by
      simp only [Input.size_ofList, List.length_append]
      omega
    rw [List.append_assoc, Wire.readUntil, if_pos hleft, hstep]
    exact ih (by omega)

/-- A value behind its length is read back. -/
theorem readNested (h : Reads step a bytes b) (hlength : bytes.length < 2 ^ 64)
    (rest : List UInt8) :
    Wire.readNested step a (.ofList (writeVarint bytes.length ++ (bytes ++ rest))) =
      .ok (b, .ofList rest) := by
  have hfits : bytes.length ≤ (Input.ofList (bytes ++ rest)).size := by simp
  have hstop : (Input.ofList (bytes ++ rest)).size - bytes.length = rest.length := by simp
  rw [Wire.readNested, readVarint_write hlength]
  show (if bytes.length ≤ (Input.ofList (bytes ++ rest)).size then
    Wire.readUntil step ((Input.ofList (bytes ++ rest)).size - bytes.length) (bytes.length + 1) a
      (.ofList (bytes ++ rest)) else fail .underflow) = _
  rw [if_pos hfits, hstop, h.readUntil (by omega)]

end Reads

/-! ## What a field owes -/

/-- A text field that is left out when it is empty is one step, or none at all. -/
theorem reads_textField {α : Type} {step : α → Input → Result (α × Input)} {a b : α} {tag : Nat}
    {s : String} (hempty : s = "" → b = a)
    (hstep : (Text.Utf8.encode s).length < 2 ^ 64 → ∀ rest,
      step a (.ofList (Key.write ⟨tag, .delimited⟩ ++ writeDelimited (Text.Utf8.encode s) ++
        rest)) = .ok (b, .ofList rest))
    (hlength : (writeTextField tag s).length < 2 ^ 63) :
    Reads step a (writeTextField tag s) b := by
  by_cases hs : s.isEmpty
  · rw [writeTextField, if_pos hs, hempty (String.isEmpty_iff.mp hs)]
    exact .done a
  · rw [writeTextField, if_neg hs, List.length_append] at hlength
    rw [writeTextField, if_neg hs]
    have hbody := length_le_writeDelimited (Text.Utf8.encode s)
    exact .single (List.append_ne_nil_of_left_ne_nil (Key.write_ne_nil _) _) (hstep (by omega))

namespace Field

variable {M : Type}

/-- Puts into `m` what the field holds in `v`. -/
def copy (f : Field M) (v m : M) : M := f.fill (f.content v) m

/-- Reads the field, which has to be the one whose key comes next. -/
def readKeyed (f : Field M) (budget : Nat) (m : M) (i : Input) : Result (M × Input) := do
  let (key, i) ← readKey i
  if key.tag = f.tag then f.read budget key.wireType m i else fail (.badKey key.tag)

/-- A field whose body is read is read behind its key. -/
theorem readKeyed_write {f : Field M} {budget : Nat} {m m' : M} {w : WireType}
    {body : List UInt8} (htag : ProperTag f.tag)
    (h : ∀ rest, f.read budget w m (.ofList (body ++ rest)) = .ok (m', .ofList rest))
    (rest : List UInt8) :
    f.readKeyed budget m (.ofList (Key.write ⟨f.tag, w⟩ ++ body ++ rest)) =
      .ok (m', .ofList rest) := by
  rw [List.append_assoc, readKeyed, readKey_write htag]
  show (if f.tag = f.tag then f.read budget w m (.ofList (body ++ rest)) else _) = _
  rw [if_pos rfl, h]

/-- The bytes of one value of a field, behind their key, are a path of a single step. -/
theorem reads_value {f : Field M} {budget : Nat} {m m' : M} {w : WireType} {body : List UInt8}
    (htag : ProperTag f.tag)
    (h : ∀ rest, f.read budget w m (.ofList (body ++ rest)) = .ok (m', .ofList rest)) :
    Reads (f.readKeyed budget) m (Key.write ⟨f.tag, w⟩ ++ body) m' :=
  .single (List.append_ne_nil_of_left_ne_nil (Key.write_ne_nil _) _) (readKeyed_write htag h)

/-- A field that reads back what it wrote, where `depth` levels of nesting are allowed: from a
message in which it holds what it holds in `blank`, it comes to the one in which it holds what it
held in the message written. -/
structure Faithful (f : Field M) (blank : M) (depth : Nat) : Prop where
  tag : ProperTag f.tag
  reads : ∀ (budget : Nat) (order : EntryOrder) (v m : M), depth ≤ budget → f.copy blank m = m →
    (f.write order v).length < 2 ^ 63 →
    Reads (f.readKeyed budget) m (f.write order v) (f.copy v m)
  length : ∀ (order : EntryOrder) (v : M), (f.write order v).length < 2 ^ 63 →
    f.length v = (f.write order v).length

section

variable {tag : Nat} {name : String} {blank : M} {depth : Nat}

/-- Text fields are written unless they are empty, and read back. -/
theorem faithful_text {get : M → String} {set : M → String → M} (htag : ProperTag tag)
    (hblank : get blank = "") : (text tag name get set).Faithful blank depth where
  tag := htag
  reads budget order v m _ hm hlength := by
    have hm : set m (get blank) = m := hm
    have hlength : (writeTextField tag (get v)).length < 2 ^ 63 := hlength
    show Reads _ m (writeTextField tag (get v)) (set m (get v))
    refine reads_textField (fun hv => ?_) (fun hbody => readKeyed_write htag fun rest => ?_) hlength
    · rw [hv, ← hblank, hm]
    · have hread := readText_write hbody rest
      simp only [text, expectWireType, if_pos, bind, Except.bind, hread]
      rfl
  length order v hlength := (length_writeTextField htag hlength).symm

theorem faithful_bool {get : M → Bool} {set : M → Bool → M} (htag : ProperTag tag)
    (hblank : get blank = false) : (bool tag name get set).Faithful blank depth where
  tag := htag
  reads budget order v m _ hm _ := by
    have hm : set m (get blank) = m := hm
    show Reads _ m (if get v then _ else []) (set m (get v))
    -- The value that is not written is the one that a blank message has.
    by_cases hv : get v
    · rw [if_pos hv, hv]
      refine reads_value (w := .varint) htag fun rest => ?_
      have hread := readVarint_write (n := 1) (by omega) rest
      simp only [bool, expectWireType, if_pos, bind, Except.bind, hread]
      rfl
    · rw [if_neg hv, Bool.eq_false_iff.mpr hv, ← hblank, hm]
      exact .done m
  length order v _ := by
    show (if get v then _ else 0) = (if get v then _ else []).length
    split
    · rw [List.length_append, length_key htag]
      rfl
    · rfl

theorem faithful_int64 {get : M → Int64} {set : M → Int64 → M} (htag : ProperTag tag)
    (hblank : get blank = 0) : (int64 tag name get set).Faithful blank depth where
  tag := htag
  reads budget order v m _ hm _ := by
    have hm : set m (get blank) = m := hm
    show Reads _ m (if get v = 0 then [] else _) (set m (get v))
    by_cases hv : get v = 0
    · rw [if_pos hv, hv, ← hblank, hm]
      exact .done m
    · rw [if_neg hv]
      refine reads_value (w := .varint) htag fun rest => ?_
      have hread := readVarint_write (get v).toUInt64.toNat_lt rest
      -- Negative numbers go through their unsigned counterpart and come back.
      have hback : Int64.ofNat (get v).toUInt64.toNat = get v :=
        congrArg Int64.ofUInt64 UInt64.ofNat_toNat
      simp only [int64, expectWireType, if_pos, bind, Except.bind, hread, hback]
      rfl
  length order v _ := by
    show (if get v = 0 then 0 else _) = (if get v = 0 then [] else _).length
    split
    · rfl
    · rw [List.length_append, length_key htag, length_writeVarint (get v).toUInt64.toNat_lt]

end

end Field
end SandboxPool.Wire
