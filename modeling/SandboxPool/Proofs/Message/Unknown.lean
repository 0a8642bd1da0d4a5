import SandboxPool.Host.Buffers
import SandboxPool.Proofs.Message.RoundTrip
import SandboxPool.Proofs.Wire.Locality

/-!
# Messages with fields that nobody knows

A guest built against a newer schema may write fields that the host has not heard of. Wherever one
stands between the fields of a message, whatever kind of value it has and however it is spelt, the
host reads what it would have read without it (`MessageKind.decode_unknown`).
-/

namespace SandboxPool

open Wire

/-! ## The message types are local -/

/-- A reader of events looks no further than the field at hand. -/
theorem Event.codec_local : Event.codec.Local := Codec.local_mk (by simp)

/-- So does a reader of requests, which hold an event. -/
theorem EventRequest.codec_local : (Message.codec : Codec EventRequest).Local :=
  Codec.local_mk (by simp [Event.codec_local])

theorem EventResponse.codec_local : (Message.codec : Codec EventResponse).Local :=
  Codec.local_mk (by simp [Event.codec_local])

theorem HeadersRequest.codec_local : (Message.codec : Codec HeadersRequest).Local :=
  Codec.local_mk (by simp)

theorem HeadersResponse.codec_local : (Message.codec : Codec HeadersResponse).Local :=
  Codec.local_mk (by simp)

theorem Metadata.codec_local : Metadata.codec.Local := Codec.local_mk (by simp)

theorem LockTarget.codec_local : LockTarget.codec.Local := Codec.local_mk (by simp)

theorem LockSpec.codec_local : LockSpec.codec.Local :=
  Codec.local_mk (by simp [LockTarget.codec_local])

/-- And a reader of locks, whose parts are messages themselves. -/
theorem Lock.codec_local : (Message.codec : Codec Lock).Local :=
  Codec.local_mk (by simp [Metadata.codec_local, LockSpec.codec_local])

namespace MessageKind

/-- Readers of all types of messages are local. -/
theorem codec_local (k : MessageKind) : (Message.codec : Codec k.Value).Local :=
  match k with
  | event => Event.codec_local
  | eventRequest => EventRequest.codec_local
  | eventResponse => EventResponse.codec_local
  | headersRequest => HeadersRequest.codec_local
  | headersResponse => HeadersResponse.codec_local
  | lock => Lock.codec_local

/-! ## What the host reads -/

/-- Buffers are read alike if their bytes are. -/
theorem receive_congr {M : Type} [Message M] {t t' : HandleTable} {handle : Int32}
    {bytes bytes' : List UInt8} {messageType : Option String}
    (h : t.resolve handle = .ok ⟨bytes, messageType⟩)
    (h' : t'.resolve handle = .ok ⟨bytes', messageType⟩)
    (hsame : Message.decode M bytes' = Message.decode M bytes) :
    Buffers.receive M t' handle = Buffers.receive M t handle := by
  simp only [Buffers.receive, h, h', hsame, bind, Except.bind]

/-- An unknown field between two fields of a message, or at either end, makes no difference to what
is read, nor does it in a buffer. -/
theorem decode_unknown (k : MessageKind) {before after field : List UInt8} {tag : Nat}
    (hboundary : (Message.codec : Codec k.Value).Boundary before after)
    (hunknown : ∀ f ∈ (Message.codec : Codec k.Value).fields, f.tag ≠ tag)
    (hfield : WholeField Codec.depthLimit tag field) :
    Message.decode k.Value (before ++ field ++ after) =
      Message.decode k.Value (before ++ after) ∧
    ∀ (t t' : HandleTable) (handle : Int32) (messageType : Option String),
      t.resolve handle = .ok ⟨before ++ after, messageType⟩ →
      t'.resolve handle = .ok ⟨before ++ field ++ after, messageType⟩ →
      Buffers.receive k.Value t' handle = Buffers.receive k.Value t handle := by
  have hsame := Codec.decode_insert k.codec_local hboundary hfield hunknown
  exact ⟨hsame, fun _ _ _ _ h h' => receive_congr h h' hsame⟩

/-- A group with an unknown tag: in it a number with two bytes more than it needs, under a tag
that is known outside of it, and a group with nothing in it, whose end is spelt with a byte too
many. -/
def strangeGroup : List UInt8 := [0x7b, 0x08, 0xff, 0x80, 0x00, 0x13, 0x94, 0x00, 0x7c]

/-- A group within a group is a whole field, though no message has one. -/
theorem strangeGroup_whole : WholeField Codec.depthLimit 15 strangeGroup := by
  have hstart : Key.Spelt ⟨15, .groupStart⟩ [0x7b] := Key.spelt_write (by decide) _
  have hstop : Key.Spelt ⟨15, .groupEnd⟩ [0x7c] := Key.spelt_write (by decide) _
  have hkey : Key.Spelt ⟨1, .varint⟩ [0x08] := Key.spelt_write (by decide) _
  have hinnerStart : Key.Spelt ⟨2, .groupStart⟩ [0x13] := Key.spelt_write (by decide) _
  have hinnerStop : Key.Spelt ⟨2, .groupEnd⟩ [0x94, 0x00] :=
    ⟨by decide, @Numeral.next 8 0 0x94 _ (by decide) (@Numeral.last 8 0x00 (by decide) nofun)⟩
  have hnumber : Numeral 9 127 [0xff, 0x80, 0x00] :=
    @Numeral.next 8 0 0xff _ (by decide)
      (@Numeral.next 7 0 0x80 _ (by decide) (@Numeral.last 7 0x00 (by decide) nofun))
  have hbody : GroupBody 99 15 [0x08, 0xff, 0x80, 0x00, 0x13, 0x94, 0x00, 0x7c] :=
    .field hkey (.varint hnumber) (.field hinnerStart (.group (.stop hinnerStop)) (.stop hstop))
  exact .mk hstart (.group hbody)

/-- The metadata of the hollow lock alone. -/
def hollowMetadata : Lock := { hollowLock with spec := none }

/-- A table with one buffer, as a guest registers it. -/
def holding (bytes : List UInt8) : HandleTable := ⟨1, #[some ⟨bytes, none⟩], []⟩

/-- Between the metadata and the rest of a lock. -/
theorem decode_unknown_hollow :
    let before := Message.encodeIn backwards hollowMetadata
    let after := (Message.encodeIn backwards hollowLock).drop before.length
    (Message.codec : Codec Lock).Boundary before after ∧
    (∀ f ∈ (Message.codec : Codec Lock).fields, f.tag ≠ 15) ∧
    WholeField Codec.depthLimit 15 strangeGroup ∧
    Message.decode Lock (before ++ strangeGroup ++ after) = .ok hollowLock ∧
    Buffers.receive Lock (holding (before ++ strangeGroup ++ after)) 65537 =
      Buffers.receive Lock (holding (before ++ after)) 65537 := by
  intro before after
  -- Both messages are read back because they are short enough to have a length.
  have hshort : before.length < 2 ^ 63 := by
    have hfew : before.length = 10 := by decide
    omega
  have hshortLock : (Message.encodeIn backwards hollowLock).length < 2 ^ 63 := by
    have hfew : (Message.encodeIn backwards hollowLock).length = 25 := by decide
    omega
  have hboundary : (Message.codec : Codec Lock).Boundary before after :=
    Lock.faithful.boundary (by decide) backwards hollowMetadata hshort
  have hunknown : ∀ f ∈ (Message.codec : Codec Lock).fields, f.tag ≠ 15 := by decide
  have hwhole : before ++ after = Message.encodeIn backwards hollowLock := by decide
  have hread : Message.decode Lock (before ++ after) = .ok hollowLock := by
    rw [hwhole]
    exact decode_encodeIn .lock backwards hollowLock hshortLock
  obtain ⟨hdecoded, hreceived⟩ := decode_unknown .lock hboundary hunknown strangeGroup_whole
  exact ⟨hboundary, hunknown, strangeGroup_whole, hdecoded.trans hread,
    hreceived _ _ _ none rfl rfl⟩

end MessageKind
end SandboxPool
