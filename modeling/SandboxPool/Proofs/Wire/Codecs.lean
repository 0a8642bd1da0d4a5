import SandboxPool.Proofs.Wire.Fields

/-!
# A message type reads back what it wrote

From faithful fields to a faithful message type. Between two fields of a message being read, those
that went by hold what they held and the others are blank (`Codec.Rebuilt`). At the end all of
them hold what they held, which is the message again. A faithful message type makes a faithful
field of every message that nests it, one level deeper.
-/

namespace SandboxPool.Wire

/-- Among elements with different keys, each is the one that is found by its key. -/
theorem find?_of_nodup {α κ : Type} [DecidableEq κ] (key : α → κ) {l : List α}
    (hnodup : (l.map key).Nodup) {a : α} (ha : a ∈ l) :
    l.find? (fun b => key b = key a) = some a := by
  induction l with
  | nil => exact absurd ha List.not_mem_nil
  | cons b l ih =>
    rw [List.map_cons, List.nodup_cons] at hnodup
    rcases List.mem_cons.mp ha with rfl | hl
    · rw [List.find?_cons_of_pos (by simp)]
    · have hne : ¬ key b = key a := by
        intro h
        rw [h] at hnodup
        exact hnodup.1 (List.mem_map_of_mem hl)
      rw [List.find?_cons_of_neg (by simpa using hne), ih hnodup.2 hl]

namespace Codec

variable {M : Type}

/-- Filling in the fields of `v` one after another ends with `v`, and each of them is blank until
its turn comes. -/
def Rebuilt (c : Codec M) (v : M) : List (Field M) → M → Prop
  | [], m => m = v
  | f :: rest, m => f.copy c.default m = m ∧ c.Rebuilt v rest (f.copy v m)

/-- A message type whose fields are told apart by tag and by name, that read back what they wrote
where `depth` levels of nesting are allowed, and that make up the message. -/
structure Faithful (c : Codec M) (depth : Nat) : Prop where
  tags : (c.fields.map Field.tag).Nodup
  labels : (c.fields.map Field.label).Nodup
  fields : ∀ f ∈ c.fields, f.Faithful c.default depth
  rebuilt : ∀ v, c.Rebuilt v c.fields c.default

namespace Faithful

variable {c : Codec M} {depth : Nat}

/-- A field of the message type is read where its key comes next. -/
theorem readField_of_keyed (h : c.Faithful depth) {f : Field M} (hf : f ∈ c.fields) {budget : Nat}
    (m : M) (i : Input) (r : M × Input) (hread : f.readKeyed budget m i = .ok r) :
    c.readField budget m i = .ok r := by
  cases hkey : readKey i with
  | error e =>
    simp only [Field.readKeyed, hkey, bind, Except.bind] at hread
    cases hread
  | ok k =>
    simp only [Field.readKeyed, hkey, bind, Except.bind] at hread
    by_cases htag : k.1.tag = f.tag
    · rw [if_pos htag] at hread
      have hfind := find?_of_nodup Field.tag h.tags hf
      simp only [readField, hkey, bind, Except.bind, htag, hfind, hread]
      rfl
    · rw [if_neg htag] at hread
      cases hread

/-- The last fields of a message are read from where the others have been filled in. -/
theorem reads_from (h : c.Faithful depth) {budget : Nat} (hbudget : depth ≤ budget)
    (order : EntryOrder) (v : M) {fs : List (Field M)} (hfs : ∀ f ∈ fs, f ∈ c.fields) {m : M}
    (hm : c.Rebuilt v fs m)
    (hlength : (fs.flatMap fun f => f.write order v).length < 2 ^ 63) :
    Reads (c.readField budget) m (fs.flatMap fun f => f.write order v) v := by
  induction fs generalizing m with
  | nil =>
    have hm : m = v := hm
    rw [hm]
    exact .done v
  | cons f fs ih =>
    obtain ⟨hblank, hrest⟩ := hm
    rw [List.flatMap_cons, List.length_append] at hlength
    have hf : f ∈ c.fields := hfs f List.mem_cons_self
    have hfirst := (h.fields f hf).reads budget order v m hbudget hblank (by omega)
    rw [List.flatMap_cons]
    apply (hfirst.mono (h.readField_of_keyed hf)).append
    exact ih (fun g hg => hfs g (List.mem_cons_of_mem f hg)) hrest (by omega)

/-- The bytes of a message lead from the default one to it. -/
theorem reads (h : c.Faithful depth) {budget : Nat} (hbudget : depth ≤ budget)
    (order : EntryOrder) (v : M) (hlength : (c.encodeIn order v).length < 2 ^ 63) :
    Reads (c.readField budget) c.default (c.encodeIn order v) v :=
  h.reads_from hbudget order v (fun _ hf => hf) (h.rebuilt v) hlength

theorem length_from (h : c.Faithful depth) (order : EntryOrder) (v : M) {fs : List (Field M)}
    (hfs : ∀ f ∈ fs, f ∈ c.fields)
    (hlength : (fs.flatMap fun f => f.write order v).length < 2 ^ 63) :
    fs.foldr (fun f n => f.length v + n) 0 = (fs.flatMap fun f => f.write order v).length := by
  induction fs with
  | nil => rfl
  | cons f fs ih =>
    rw [List.flatMap_cons, List.length_append] at hlength ⊢
    have hf := (h.fields f (hfs f List.mem_cons_self)).length order v (by omega)
    have hrest := ih (fun g hg => hfs g (List.mem_cons_of_mem f hg)) (by omega)
    rw [List.foldr_cons, hf, hrest]

/-- The length that is told is the number of bytes written. -/
theorem length_eq (h : c.Faithful depth) (order : EntryOrder) (v : M)
    (hlength : (c.encodeIn order v).length < 2 ^ 63) :
    c.length v = (c.encodeIn order v).length :=
  h.length_from order v (fun _ hf => hf) hlength

/-- A message is read back from its bytes. -/
theorem decode_encodeIn (h : c.Faithful depth) (hdepth : depth ≤ depthLimit) (order : EntryOrder)
    (v : M) (hlength : (c.encodeIn order v).length < 2 ^ 63) :
    c.decode (c.encodeIn order v) = .ok v := by
  have hread := (h.reads hdepth order v hlength).readUntil (Nat.le_refl _) []
  rw [List.append_nil] at hread
  rw [decode]
  show (readUntil (c.readField depthLimit) ([] : List UInt8).length _ _ _).map _ = _
  rw [hread]
  rfl

theorem fill_from (h : c.Faithful depth) (v : M) {fs : List (Field M)}
    (hfs : ∀ f ∈ fs, f ∈ c.fields) {m : M} (hm : c.Rebuilt v fs m) :
    (fs.map fun f => (f.label, f.content v)).foldl (fun m e =>
      match c.fields.find? fun f => f.label = e.1 with
      | some f => f.fill e.2 m
      | none => m) m = v := by
  induction fs generalizing m with
  | nil => exact hm
  | cons f fs ih =>
    have hfind := find?_of_nodup Field.label h.labels (hfs f List.mem_cons_self)
    rw [List.map_cons, List.foldl_cons, hfind]
    exact ih (fun g hg => hfs g (List.mem_cons_of_mem f hg)) hm.2

/-- A message is made again from its contents. -/
theorem ofRecord_record (h : c.Faithful depth) (v : M) : c.ofRecord (c.record v) = v :=
  h.fill_from v (fun _ hf => hf) (h.rebuilt v)

end Faithful
end Codec

namespace Field

variable {M N : Type} {tag : Nat} {name : String} {blank : M} {depth : Nat} {codec : Codec N}
  {get : M → Option N} {set : M → Option N → M}

/-- A message within a message is copied as a whole. -/
theorem copy_message (hcodec : codec.Faithful depth) (v m : M) :
    (message tag name codec get set).copy v m = set m (get v) := by
  rw [copy]
  cases hv : get v with
  | none => simp only [message, hv]
  | some n => simp only [message, hv, hcodec.ofRecord_record]

theorem write_message_none {v : M} (hv : get v = none) (order : EntryOrder) :
    (message tag name codec get set).write order v = [] := by
  simp only [message, hv]

/-- A message within a message is its length and its bytes. -/
theorem write_message_some {v : M} {n : N} (hv : get v = some n) (order : EntryOrder) :
    (message tag name codec get set).write order v = Key.write ⟨tag, .delimited⟩ ++
      (writeVarint (codec.length n) ++ codec.encodeIn order n) := by
  simp only [message, hv]

theorem length_le_write_message {v : M} {n : N} (hv : get v = some n) (order : EntryOrder) :
    (codec.encodeIn order n).length ≤
      ((message tag name codec get set).write order v).length := by
  rw [write_message_some hv, List.length_append, List.length_append]
  omega

/-- A sub-message that is not there is left out; one that is there is written even if it takes no
bytes, and is there again when it is read. -/
theorem faithful_message (hcodec : codec.Faithful depth) (htag : ProperTag tag)
    (hget : ∀ m n, get (set m n) = n) (hblank : get blank = none) :
    (message tag name codec get set).Faithful blank (depth + 1) where
  tag := htag
  reads budget order v m hbudget hm hlength := by
    rw [copy_message hcodec, hblank] at hm
    rw [copy_message hcodec]
    have hnone : get m = none := by rw [← hm, hget]
    cases hv : get v with
    | none =>
      rw [write_message_none hv, hm]
      -- A message within is one value with a length before it, read with one level less to go.
      exact .done m
    | some n =>
      have hbody : (codec.encodeIn order n).length < 2 ^ 63 :=
        Nat.lt_of_le_of_lt (length_le_write_message hv order) hlength
      have hdown : depth ≤ budget - 1 := by omega
      have hdeep : ¬ budget = 0 := by omega
      have hread := hcodec.reads hdown order n hbody
      rw [write_message_some hv]
      refine reads_value (w := .delimited) htag fun rest => ?_
      have hnested := hread.readNested (by omega) rest
      rw [← hcodec.length_eq order n hbody] at hnested
      simp only [message, expectWireType, if_pos, if_neg hdeep, hnone, Option.getD_none, bind,
        Except.bind, List.append_assoc, hnested]
      rfl
  length order v hlength := by
    cases hv : get v with
    | none =>
      rw [write_message_none hv]
      simp only [message, hv, List.length_nil]
    | some n =>
      have hbody : (codec.encodeIn order n).length < 2 ^ 63 :=
        Nat.lt_of_le_of_lt (length_le_write_message hv order) hlength
      -- Its length is small enough to be read back as a length.
      have hfew : codec.length n < 2 ^ 64 := by
        rw [hcodec.length_eq order n hbody]
        omega
      rw [write_message_some hv, List.length_append, List.length_append, length_key htag,
        length_writeVarint hfew, ← hcodec.length_eq order n hbody]
      simp only [message, hv, delimitedLength]

end Field
end SandboxPool.Wire
