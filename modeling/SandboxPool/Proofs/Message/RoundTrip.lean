import SandboxPool.Message.Lock
import SandboxPool.Proofs.Wire.Codecs
import SandboxPool.Proofs.Wire.Entries

/-!
# Messages are read back from their bytes

Each message type is shown to be faithful: its fields have tags and names of their own, each is
put back by what was read of it, and together they are the message. What a type owes to the reader
beyond that is only how deep its messages nest, three levels at most.
-/

namespace SandboxPool

open Wire

/-! ## The message types -/

/-- An event holds texts, a number and a map, which goes one level deep. -/
theorem Event.faithful : Event.codec.Faithful 1 where
  tags := by decide
  labels := by decide
  fields := by
    simp only [Event.codec, List.forall_mem_cons]
    refine ⟨?_, ?_, ?_, ?_, ?_, List.forall_mem_nil _⟩
    · exact Field.faithful_text (by decide) rfl
    · exact Field.faithful_text (by decide) rfl
    · exact Field.faithful_text (by decide) rfl
    · exact Field.faithful_int64 (by decide) rfl
    · exact Field.faithful_textMap (by decide) (fun _ _ => rfl) (fun _ _ _ => rfl) rfl
  rebuilt _ := ⟨rfl, rfl, rfl, rfl, rfl, rfl⟩

/-- A request wraps an event, so it goes one level deeper. -/
theorem EventRequest.faithful : (Message.codec : Codec EventRequest).Faithful 2 where
  tags := by decide
  labels := by decide
  fields := by
    simp only [Message.codec, List.forall_mem_cons]
    refine ⟨?_, List.forall_mem_nil _⟩
    exact Field.faithful_message Event.faithful (by decide) (fun _ _ => rfl) rfl
  rebuilt _ := by
    simp only [Message.codec, Codec.Rebuilt, Field.copy_message Event.faithful]
    trivial

/-- So does a response. -/
theorem EventResponse.faithful : (Message.codec : Codec EventResponse).Faithful 2 where
  tags := by decide
  labels := by decide
  fields := by
    simp only [Message.codec, List.forall_mem_cons]
    refine ⟨?_, ?_, ?_, List.forall_mem_nil _⟩
    · exact Field.faithful_bool (by decide) rfl
    · exact Field.faithful_text (by decide) rfl
    · exact Field.faithful_message Event.faithful (by decide) (fun _ _ => rfl) rfl
  rebuilt _ := by
    simp only [Message.codec, Codec.Rebuilt, Field.copy_message Event.faithful]
    exact ⟨rfl, rfl, rfl, rfl⟩

/-- Headers are a map. -/
theorem HeadersRequest.faithful : (Message.codec : Codec HeadersRequest).Faithful 1 where
  tags := by decide
  labels := by decide
  fields := by
    simp only [Message.codec, List.forall_mem_cons]
    refine ⟨?_, List.forall_mem_nil _⟩
    exact Field.faithful_textMap (by decide) (fun _ _ => rfl) (fun _ _ _ => rfl) rfl
  rebuilt _ := ⟨rfl, rfl⟩

theorem HeadersResponse.faithful : (Message.codec : Codec HeadersResponse).Faithful 1 where
  tags := by decide
  labels := by decide
  fields := by
    simp only [Message.codec, List.forall_mem_cons]
    refine ⟨?_, ?_, ?_, List.forall_mem_nil _⟩
    · exact Field.faithful_bool (by decide) rfl
    · exact Field.faithful_text (by decide) rfl
    · exact Field.faithful_textMap (by decide) (fun _ _ => rfl) (fun _ _ _ => rfl) rfl
  rebuilt _ := ⟨rfl, rfl, rfl, rfl⟩

/-- Metadata has names and a map of labels. -/
theorem Metadata.faithful : Metadata.codec.Faithful 1 where
  tags := by decide
  labels := by decide
  fields := by
    simp only [Metadata.codec, List.forall_mem_cons]
    refine ⟨?_, ?_, ?_, ?_, List.forall_mem_nil _⟩
    · exact Field.faithful_text (by decide) rfl
    · exact Field.faithful_text (by decide) rfl
    · exact Field.faithful_text (by decide) rfl
    · exact Field.faithful_textMap (by decide) (fun _ _ => rfl) (fun _ _ _ => rfl) rfl
  rebuilt _ := ⟨rfl, rfl, rfl, rfl, rfl⟩

/-- A target has text fields only, and nothing within it. -/
theorem LockTarget.faithful : LockTarget.codec.Faithful 0 where
  tags := by decide
  labels := by decide
  fields := by
    simp only [LockTarget.codec, List.forall_mem_cons]
    refine ⟨?_, ?_, ?_, ?_, ?_, ?_, ?_, List.forall_mem_nil _⟩
    all_goals exact Field.faithful_text (by decide) rfl
  rebuilt _ := ⟨rfl, rfl, rfl, rfl, rfl, rfl, rfl, rfl⟩

/-- A specification wraps a target. -/
theorem LockSpec.faithful : LockSpec.codec.Faithful 1 where
  tags := by decide
  labels := by decide
  fields := by
    simp only [LockSpec.codec, List.forall_mem_cons]
    refine ⟨?_, ?_, ?_, List.forall_mem_nil _⟩
    · exact Field.faithful_message LockTarget.faithful (by decide) (fun _ _ => rfl) rfl
    · exact Field.faithful_text (by decide) rfl
    · exact Field.faithful_int64 (by decide) rfl
  rebuilt _ := by
    simp only [LockSpec.codec, Codec.Rebuilt, Field.copy_message LockTarget.faithful]
    exact ⟨trivial, rfl, rfl, rfl⟩

/-- A lock wraps its metadata and its specification. -/
theorem Lock.faithful : (Message.codec : Codec Lock).Faithful 2 where
  tags := by decide
  labels := by decide
  fields := by
    simp only [Message.codec, List.forall_mem_cons]
    refine ⟨?_, ?_, ?_, ?_, ?_, List.forall_mem_nil _⟩
    · exact Field.faithful_text (by decide) rfl
    · exact Field.faithful_text (by decide) rfl
    · exact Field.faithful_text (by decide) rfl
    · exact Field.faithful_message Metadata.faithful (by decide) (fun _ _ => rfl) rfl
    · exact Field.faithful_message LockSpec.faithful (by decide) (fun _ _ => rfl) rfl
  rebuilt _ := by
    simp only [Message.codec, Codec.Rebuilt, Field.copy_message Metadata.faithful,
      Field.copy_message LockSpec.faithful]
    exact ⟨rfl, rfl, rfl, rfl, rfl, rfl⟩

/-! ## All messages -/

/-- The types of messages that host and guest exchange. -/
inductive MessageKind where
  | event | eventRequest | eventResponse | headersRequest | headersResponse | lock
  deriving Repr, DecidableEq

namespace MessageKind

/-- The messages of a type. -/
def Value : MessageKind → Type
  | event => Event
  | eventRequest => EventRequest
  | eventResponse => EventResponse
  | headersRequest => HeadersRequest
  | headersResponse => HeadersResponse
  | lock => Lock

instance : (k : MessageKind) → Message k.Value
  | event => inferInstanceAs (Message Event)
  | eventRequest => inferInstanceAs (Message EventRequest)
  | eventResponse => inferInstanceAs (Message EventResponse)
  | headersRequest => inferInstanceAs (Message HeadersRequest)
  | headersResponse => inferInstanceAs (Message HeadersResponse)
  | lock => inferInstanceAs (Message Lock)

/-- No two types of messages have the same name. -/
theorem typeName_injective {k k' : MessageKind}
    (h : Message.typeName k.Value = Message.typeName k'.Value) : k = k' := by
  cases k <;> cases k' <;> first | rfl | exact absurd h (by decide)

/-- The levels of nesting in the messages of a type. -/
def depth : MessageKind → Nat
  | headersRequest | headersResponse | event => 1
  | eventRequest | eventResponse | lock => 2

/-- No message goes as deep as a reader goes. -/
theorem depth_le_limit (k : MessageKind) : k.depth ≤ Codec.depthLimit := by
  cases k <;> decide

theorem faithful (k : MessageKind) : (Message.codec : Codec k.Value).Faithful k.depth :=
  match k with
  | event => Event.faithful
  | eventRequest => EventRequest.faithful
  | eventResponse => EventResponse.faithful
  | headersRequest => HeadersRequest.faithful
  | headersResponse => HeadersResponse.faithful
  | lock => Lock.faithful

/-- A message that is not too long is read back from its bytes. -/
theorem decode_encodeIn (k : MessageKind) (order : EntryOrder) (m : k.Value)
    (h : (Message.encodeIn order m).length < 2 ^ 63) :
    Message.decode k.Value (Message.encodeIn order m) = .ok m :=
  k.faithful.decode_encodeIn k.depth_le_limit order m h

/-- A message is told by its bytes, in whatever order its maps were written: their number is known
before they are written, reading them succeeds and gives the message back, and no other message
of its type has them, in any order. -/
theorem reads_back (k : MessageKind) (order : EntryOrder) (m : k.Value)
    (h : (Message.encodeIn order m).length < 2 ^ 63) :
    Message.length m = (Message.encodeIn order m).length ∧
    Message.decode k.Value (Message.encodeIn order m) = .ok m ∧
    ∀ (order' : EntryOrder) (m' : k.Value),
      Message.encodeIn order' m' = Message.encodeIn order m → m' = m := by
  refine ⟨k.faithful.length_eq order m h, k.decode_encodeIn order m h, ?_⟩
  intro order' m' heq
  have hread : Message.decode k.Value (Message.encodeIn order' m') = .ok m' := by
    apply k.decode_encodeIn order' m'
    rw [heq]
    exact h
  rw [heq, k.decode_encodeIn order m h] at hread
  exact (Except.ok.inj hread).symm

/-- A lock that says nothing in everything it could say: a label without name and text beside
another one, a target that names nobody, and an expiry before all time. -/
def hollowLock : Lock where
  kind := ""
  subKind := ""
  version := ""
  metadata := some ⟨"", "", "", .ofList [("", ""), ("é", "")]⟩
  spec := some ⟨some ⟨"", "", "", "", "", "", ""⟩, "", -1⟩

/-- The order of the keys turned round. -/
def backwards : EntryOrder := ⟨List.reverse, List.reverse_perm⟩

/-- A lock with nothing but hollow parts is read back with them, from entries in reverse order. -/
theorem reads_back_hollow :
    (Message.encodeIn backwards hollowLock).length = 25 ∧
    Message.length hollowLock = (Message.encodeIn backwards hollowLock).length ∧
    Message.decode Lock (Message.encodeIn backwards hollowLock) = .ok hollowLock ∧
    ∀ (order' : EntryOrder) (m' : Lock),
      Message.encodeIn order' m' = Message.encodeIn backwards hollowLock → m' = hollowLock :=
  have hbytes : (Message.encodeIn backwards hollowLock).length = 25 := by decide
  ⟨hbytes, reads_back .lock backwards hollowLock
    (Nat.lt_of_le_of_lt (Nat.le_of_eq hbytes) (by decide))⟩

end MessageKind
end SandboxPool
