import SandboxPool.Proofs.Wire.Codecs
import SandboxPool.Proofs.Wire.Grammar

/-!
# Readers look at what they take and no further

Nested values are read from the input of their parent, so nothing in the types keeps a reader from
depending on bytes behind the value it reads. None does: where it succeeds it takes some bytes and
would have come to the same whatever had followed them (`Local`). Each kind of field is local, and a
message type is local if its fields are. So a reader that has come to a place between two fields
does not see what is put in there later; what is put in only has to be gone past
(`Codec.decode_insert`).
-/

namespace SandboxPool.Wire

/-- Where the reader succeeds, it takes `least` bytes or more, whatever follows them. -/
def Local {α : Type} (least : Nat) (f : Input → Result (α × Input)) : Prop :=
  ∀ a i j, f i = .ok (a, j) →
    ∃ bytes, least ≤ bytes.length ∧ i = .ofList (bytes ++ j.bytes) ∧ Takes f bytes a

namespace Local

variable {α β : Type} {least : Nat} {f : Input → Result (α × Input)}

/-- A reader by a grammar looks no further than what it recognises. -/
theorem of_recognises {grammar : α → List UInt8 → Prop} (h : Recognises f grammar)
    (hleast : ∀ a bytes, grammar a bytes → least ≤ bytes.length) : Local least f := by
  intro a i j hread
  obtain ⟨bytes, hbytes, hi⟩ := (h a i j).mp hread
  exact ⟨bytes, hleast a bytes hbytes, hi, h.takes hbytes⟩

theorem done (a : α) : Local 0 fun i => .ok (a, i) := by
  intro b i j h
  obtain ⟨rfl, rfl⟩ := Prod.mk.inj (Except.ok.inj h)
  exact ⟨[], Nat.le_refl 0, i.eq_ofList, fun _ => rfl⟩

theorem error (e : DecodeError) : Local (α := α) least fun _ => .error e :=
  fun _ _ _ h => by cases h

/-- One that consumes something may be taken for one that need not. -/
theorem loosen (hf : Local least f) : Local 0 f := by
  intro a i j h
  obtain ⟨bytes, -, htaken⟩ := hf a i j h
  exact ⟨bytes, Nat.zero_le _, htaken⟩

/-- What is left is less than there was. -/
theorem progress (hf : Local 1 f) {a : α} {i j : Input} (h : f i = .ok (a, j)) :
    j.size < i.size := by
  obtain ⟨bytes, hleast, rfl, -⟩ := hf a i j h
  rw [Input.size_ofList, List.length_append, ← j.size_eq]
  omega

/-- Two readers, one after the other. -/
theorem bind {next : α × Input → Result (β × Input)} (hf : Local least f)
    (hnext : ∀ a, Local 0 fun i => next (a, i)) : Local least fun i => f i >>= next := by
  intro b i j h
  obtain ⟨⟨a, k⟩, hfirst, hsecond⟩ := bind_eq_ok h
  obtain ⟨first, hleast, rfl, htakes⟩ := hf a i k hfirst
  obtain ⟨second, -, rfl, hon⟩ := hnext a b k j hsecond
  refine ⟨first ++ second, by rw [List.length_append]; omega, ?_, fun rest => ?_⟩
  · rw [List.append_assoc, Input.bytes_ofList]
  · show (f (.ofList (first ++ second ++ rest)) >>= next) = _
    rw [List.append_assoc, htakes (second ++ rest)]
    exact hon rest

/-- A check that does not look at the input. -/
theorem guarded (check : Result Unit) (hf : Local least f) :
    Local least fun i => check >>= fun _ => f i := by
  cases check with
  | error e => exact error e
  | ok u => exact hf

/-- What becomes of errors makes no difference. -/
theorem relabelled (label : DecodeError → DecodeError) (hf : Local least f) :
    Local least fun i => match f i with
      | .ok r => .ok r
      | .error e => .error (label e) := by
  have hsame {a i j} : (match f i with | .ok r => .ok r | .error e => .error (label e)) =
      Except.ok (a, j) ↔ f i = .ok (a, j) := by
    cases f i with
    | error e => exact ⟨nofun, nofun⟩
    | ok r => exact Iff.rfl
  intro a i j h
  obtain ⟨bytes, hleast, hi, htakes⟩ := hf a i j (hsame.mp h)
  exact ⟨bytes, hleast, hi, fun rest => hsame.mpr (htakes rest)⟩

end Local

/-! ## Numbers, keys and texts -/

theorem readVarint_local : Local 1 readVarint :=
  .of_recognises readVarint_recognises fun _ _ h => h.length_pos

theorem readKey_local : Local 1 readKey :=
  .of_recognises readKey_recognises fun _ _ h => h.length_pos

/-- A field is gone past just where a value of its wire type comes next. -/
theorem skipField_recognises {α : Type} (budget : Nat) (k : Key) (a : α) :
    Recognises (fun i => skipField (2 * i.size + 2) budget k i >>= fun i => .ok (a, i))
      (fun b bytes => b = a ∧ Payload budget k bytes) := by
  intro b i j
  constructor
  · intro h
    obtain ⟨k, hskip, hdone⟩ := bind_eq_ok h
    obtain ⟨rfl, rfl⟩ := Prod.mk.inj (Except.ok.inj hdone)
    obtain ⟨bytes, hbytes, rfl⟩ := skipField_eq_ok.mp hskip
    exact ⟨bytes, ⟨rfl, hbytes⟩, rfl⟩
  · rintro ⟨bytes, ⟨rfl, hbytes⟩, hi⟩
    have hskip := skipField_eq_ok.mpr ⟨bytes, hbytes, hi⟩
    show (skipField (2 * i.size + 2) budget k i >>= _) = _
    rw [hskip]
    rfl

theorem skipField_local {α : Type} (budget : Nat) (k : Key) (a : α) :
    Local 0 fun i => skipField (2 * i.size + 2) budget k i >>= fun i => .ok (a, i) :=
  .of_recognises (skipField_recognises budget k a) fun _ _ _ => Nat.zero_le _

/-- The next `n` bytes are cut off if there are as many. -/
theorem cut_recognises (n : Nat) :
    Recognises (fun i => if n ≤ i.size then .ok (i.take n, i.drop n) else fail .underflow)
      (fun body bytes => bytes = body ∧ bytes.length = n) := by
  intro body i j
  dsimp only
  constructor
  · intro h
    split at h
    · next hfits =>
      obtain ⟨rfl, rfl⟩ := Prod.mk.inj (Except.ok.inj h)
      have hlength : (i.take n).length = n := List.length_take_of_le (by rwa [← i.size_eq])
      refine ⟨i.take n, ⟨rfl, hlength⟩, ?_⟩
      rw [Input.bytes_drop, Input.take, List.take_append_drop, ← Input.eq_ofList]
    · cases h
  · rintro ⟨_, ⟨rfl, rfl⟩, rfl⟩
    rw [if_pos (by simp), Input.take_append, Input.drop_append, ← Input.eq_ofList]

theorem readDelimited_local : Local 1 readDelimited :=
  readVarint_local.bind fun n => .of_recognises (cut_recognises n) fun _ _ _ => Nat.zero_le _

theorem readText_local : Local 1 readText := by
  refine readDelimited_local.bind fun bytes => ?_
  dsimp only
  cases Text.Utf8.decode bytes with
  | error e => exact .error _
  | ok s => exact .done s

/-! ## Nested values -/

section

variable {α : Type} {step : α → Input → Result (α × Input)}

/-- Fields that were read until `stop` bytes were left are a path, whatever follows them. -/
theorem Reads.of_readUntil (hstep : ∀ a, Local 1 (step a)) {stop fuel : Nat} {a b : α}
    {i j : Input} (h : Wire.readUntil step stop fuel a i = .ok (b, j)) :
    j.size = stop ∧ ∃ bytes, i = .ofList (bytes ++ j.bytes) ∧ Reads step a bytes b := by
  -- Each step takes a chunk of its own, and the chunks follow one another.
  induction fuel generalizing a i with
  | zero =>
    rw [Wire.readUntil] at h
    split at h
    · next hend =>
      obtain ⟨rfl, rfl⟩ := Prod.mk.inj (Except.ok.inj h)
      exact ⟨hend, [], i.eq_ofList, .done a⟩
    · cases h
  | succ fuel ih =>
    rw [Wire.readUntil] at h
    split at h
    · obtain ⟨⟨mid, k⟩, hread, hmore⟩ := bind_eq_ok h
      obtain ⟨chunk, hleast, rfl, htakes⟩ := hstep a mid i k hread
      obtain ⟨hend, bytes, rfl, hreads⟩ := ih hmore
      refine ⟨hend, chunk ++ bytes, ?_, .next (List.length_pos_iff.mp hleast) htakes hreads⟩
      rw [List.append_assoc, Input.bytes_ofList]
    · split at h
      · next hend =>
        obtain ⟨rfl, rfl⟩ := Prod.mk.inj (Except.ok.inj h)
        exact ⟨hend, [], i.eq_ofList, .done a⟩
      · cases h

/-- A nested value is read from its parent's input without a look at what stands behind it. -/
theorem readNested_local (hstep : ∀ a, Local 1 (step a)) (a : α) :
    Local 1 (readNested step a) := by
  -- The length ends the value: of any input that goes on with `rest`, `rest.length` bytes are left.
  refine readVarint_local.bind fun n b i j h => ?_
  dsimp only at h
  split at h
  · next hfits =>
    obtain ⟨hend, body, rfl, hreads⟩ := Reads.of_readUntil hstep h
    have hn : n = body.length := by
      rw [Input.size_ofList, List.length_append, ← j.size_eq] at hend hfits
      omega
    refine ⟨body, Nat.zero_le _, rfl, fun rest => ?_⟩
    have hfits : n ≤ (Input.ofList (body ++ rest)).size := by simp [hn]
    have hstop : (Input.ofList (body ++ rest)).size - n = rest.length := by simp [hn]
    dsimp only
    rw [if_pos hfits, hstop, hreads.readUntil (by omega)]
  · cases h

end

/-! ## Fields and messages -/

/-- A field whose reader looks no further than it takes. -/
def Field.Local {M : Type} (f : Field M) : Prop :=
  ∀ budget w m, Wire.Local 1 (f.read budget w m)

/-- A message type all of whose fields are local. -/
def Codec.Local {M : Type} (c : Codec M) : Prop := ∀ f ∈ c.fields, f.Local

/-- A reader of messages looks no further than its fields' readers do. -/
theorem Codec.local_mk {M : Type} {name : String} {default : M} {fields : List (Field M)}
    (h : ∀ f ∈ fields, f.Local) : (Codec.mk name default fields).Local := h

/-- One field of a local message type, known or unknown. -/
theorem Codec.Local.readField {M : Type} {c : Codec M} (h : c.Local) (budget : Nat) (m : M) :
    Wire.Local 1 (c.readField budget m) := by
  refine readKey_local.bind fun k => ?_
  cases hfind : c.fields.find? (·.tag = k.tag) with
  | none =>
    simp only [hfind]
    exact skipField_local budget k m
  | some f =>
    simp only [hfind]
    have hf := h f (List.mem_of_find?_eq_some hfind) budget k.wireType m
    exact (hf.relabelled (·.inField c.name f.name)).loosen

namespace Field

variable {M N : Type} {tag : Nat} {name : String}

@[simp] theorem text_local (get : M → String) (set : M → String → M) :
    (text tag name get set).Local :=
  fun _ w m => .guarded (expectWireType .delimited w) (readText_local.bind fun s => .done (set m s))

@[simp] theorem bool_local (get : M → Bool) (set : M → Bool → M) :
    (bool tag name get set).Local :=
  fun _ w m =>
    .guarded (expectWireType .varint w) (readVarint_local.bind fun n => .done (set m (n ≠ 0)))

@[simp] theorem int64_local (get : M → Int64) (set : M → Int64 → M) :
    (int64 tag name get set).Local :=
  fun _ w m => .guarded (expectWireType .varint w)
    (readVarint_local.bind fun n => .done (set m (Int64.ofNat n)))

/-- Reading a message within a message stops where its bytes stop. -/
@[simp] theorem message_local {codec : Codec N} (hcodec : codec.Local) (get : M → Option N)
    (set : M → Option N → M) : (message tag name codec get set).Local := by
  intro budget w m
  apply Local.guarded (expectWireType .delimited w)
  by_cases hdeep : budget = 0
  · simp only [if_pos hdeep]
    exact .error _
  · simp only [if_neg hdeep]
    exact (readNested_local (hcodec.readField (budget - 1)) _).bind fun n => .done (set m (some n))

theorem readEntryField_local (budget : Nat) (e : String × String) :
    Wire.Local 1 (readEntryField budget e) := by
  refine readKey_local.bind fun k => ?_
  have htext (put : String → String × String) : Wire.Local 0 fun i =>
      expectWireType .delimited k.wireType >>= fun _ =>
        readText i >>= fun r => Except.ok (put r.1, r.2) :=
    .guarded _ (readText_local.bind fun s => .done (put s)).loosen
  by_cases hkey : k.tag = 1
  · simp only [if_pos hkey]
    exact htext fun s => (s, e.2)
  simp only [if_neg hkey]
  by_cases hvalue : k.tag = 2
  · simp only [if_pos hvalue]
    exact htext fun s => (e.1, s)
  simp only [if_neg hvalue]
  exact skipField_local budget k e

/-- So does reading an entry of a map. -/
@[simp] theorem textMap_local (get : M → TextMap) (set : M → TextMap → M) :
    (textMap tag name get set).Local := by
  intro budget w m
  by_cases hdeep : budget = 0
  · simp only [textMap, if_pos hdeep]
    exact .error _
  · simp only [textMap, if_neg hdeep]
    exact (readNested_local (readEntryField_local (budget - 1)) _).bind fun e =>
      .done (set m ((get m).insert e.1 e.2))

end Field

/-! ## Fields put in between others -/

section

variable {α : Type} {step : α → Input → Result (α × Input)}

/-- More fuel than there are bytes makes no difference, to failures neither. -/
theorem readUntil_fuel (hstep : ∀ a, Local 1 (step a)) {stop fuel fuel' : Nat} (a : α) (i : Input)
    (hfuel : i.size ≤ stop + fuel) (hfuel' : i.size ≤ stop + fuel') :
    readUntil step stop fuel a i = readUntil step stop fuel' a i := by
  induction fuel generalizing fuel' a i with
  | zero =>
    cases fuel' with
    | zero => rfl
    | succ fuel' =>
      have hend : ¬ stop < i.size := by omega
      rw [readUntil, readUntil, if_neg hend]
  | succ fuel ih =>
    cases fuel' with
    | zero =>
      have hend : ¬ stop < i.size := by omega
      rw [readUntil, readUntil, if_neg hend]
    | succ fuel' =>
      rw [readUntil, readUntil]
      split
      · cases hread : step a i with
        | error e => rfl
        | ok r =>
          have hless := (hstep a).progress hread
          exact ih r.1 r.2 (by omega) (by omega)
      · rfl

/-- A reader that has gone a path goes on from where the path ends. -/
theorem Reads.readUntil_append (hstep : ∀ a, Local 1 (step a)) {a b : α} {bytes rest : List UInt8}
    (h : Reads step a bytes b) :
    Wire.readUntil step 0 (bytes ++ rest).length a (.ofList (bytes ++ rest)) =
      Wire.readUntil step 0 rest.length b (.ofList rest) := by
  induction h with
  | done a => rfl
  | @next a b c chunk more hne htakes _ ih =>
    have hchunk : 0 < chunk.length := List.length_pos_iff.mpr hne
    rw [← ih, List.append_assoc, List.length_append]
    obtain ⟨n, hn⟩ : ∃ n, chunk.length = n + 1 := ⟨chunk.length - 1, by omega⟩
    have hleft : 0 < (Input.ofList (chunk ++ (more ++ rest))).size := by
      rw [Input.size_ofList, List.length_append]
      omega
    rw [hn, Nat.add_right_comm, Wire.readUntil, if_pos hleft, htakes]
    -- What is left of the fuel was meant for the longer input.
    exact readUntil_fuel hstep b _ (by rw [Input.size_ofList]; omega) (by simp)

end

namespace Codec

variable {M : Type} {c : Codec M} {p q : List UInt8}

/-- Between `p` and `q` one field ends and another begins, or there is an end of the message: who
reads field by field comes to a place from which just `q` is left. -/
def Boundary (c : Codec M) (p q : List UInt8) : Prop :=
  ∃ m, readUntil (c.readField depthLimit) q.length (p ++ q).length c.default (.ofList (p ++ q)) =
    .ok (m, .ofList q)

/-- What stands before a boundary is a path, whatever follows it. -/
theorem Boundary.reads (hc : c.Local) (h : c.Boundary p q) :
    ∃ m, Reads (c.readField depthLimit) c.default p m := by
  obtain ⟨m, hread⟩ := h
  obtain ⟨-, bytes, hbytes, hreads⟩ := Reads.of_readUntil (hc.readField depthLimit) hread
  have hp : p = bytes := List.append_cancel_right (congrArg Input.bytes hbytes)
  exact ⟨m, hp ▸ hreads⟩

/-- The end of a message that was written is a boundary, whatever follows. -/
theorem Faithful.boundary {depth : Nat} (h : c.Faithful depth) (hdepth : depth ≤ depthLimit)
    (order : EntryOrder) (v : M) (hlength : (c.encodeIn order v).length < 2 ^ 63) :
    c.Boundary (c.encodeIn order v) q :=
  ⟨v, (h.reads hdepth order v hlength).readUntil (by simp) q⟩

/-- A field that the message type does not know is gone past, and the message stays as it is. -/
theorem takes_unknown {budget tag : Nat} {field : List UInt8} (hfield : WholeField budget tag field)
    (hunknown : ∀ f ∈ c.fields, f.tag ≠ tag) (m : M) : Takes (c.readField budget m) field m := by
  intro rest
  obtain @⟨w, key, value, hkey, hvalue⟩ := hfield
  have hnone : c.fields.find? (·.tag = tag) = none :=
    List.find?_eq_none.mpr fun f hf => by simpa using hunknown f hf
  have hread := readKey_recognises.takes hkey (value ++ rest)
  simp only [readField, List.append_assoc, hread, hnone, bind, Except.bind]
  exact (skipField_recognises budget ⟨tag, w⟩ m).takes ⟨rfl, hvalue⟩ rest

/-- A field with an unknown tag makes no difference at a boundary, to failures neither. -/
theorem decode_insert (hc : c.Local) (hboundary : c.Boundary p q) {tag : Nat} {field : List UInt8}
    (hfield : WholeField depthLimit tag field) (hunknown : ∀ f ∈ c.fields, f.tag ≠ tag) :
    c.decode (p ++ field ++ q) = c.decode (p ++ q) := by
  obtain ⟨m, hreads⟩ := hboundary.reads hc
  have hpast : Reads (c.readField depthLimit) m field m :=
    .single hfield.ne_nil (takes_unknown hfield hunknown m)
  have hstep := hc.readField depthLimit
  rw [decode, decode, (hreads.append hpast).readUntil_append hstep, hreads.readUntil_append hstep]

end Codec
end SandboxPool.Wire
