import SandboxPool.Wire.Codec
import SandboxPool.Failure

/-!
# Messages between host and guest

The host and its guests talk in messages: an event to look at, headers to change, and the
answers. `Message M` gives a message type the codec it is written with and the type name its
buffers are tagged with; both are part of the contract with guests.
-/

namespace SandboxPool

open Wire

/-- A type of messages. -/
class Message (M : Type) where
  typeName : String
  codec : Codec M

namespace Message

variable {M : Type} [Message M]

/-- The bytes of a message. -/
def encode (m : M) : List UInt8 := (codec (M := M)).encode m

/-- The bytes of a message whose maps are written in some order. -/
def encodeIn (order : EntryOrder) (m : M) : List UInt8 := (codec (M := M)).encodeIn order m

/-- How many bytes a message takes. -/
def length (m : M) : Nat := (codec (M := M)).length m

/-- Reads a message. -/
def decode (M : Type) [Message M] (bytes : List UInt8) : Result M := (codec (M := M)).decode bytes

end Message

/-- Something that happened, with details by name. -/
structure Event where
  type : String
  code : String
  id : String
  timeUnixMs : Int64
  fields : TextMap
  deriving Repr, DecidableEq, Inhabited

/-- The fields of an event. -/
def Event.codec : Codec Event where
  name := "Event"
  default := ⟨"", "", "", 0, .empty⟩
  fields := [
    .text 1 "r#type" Event.type (fun m s => { m with type := s }),
    .text 2 "code" Event.code (fun m s => { m with code := s }),
    .text 3 "id" Event.id (fun m s => { m with id := s }),
    .int64 4 "time_unix_ms" Event.timeUnixMs (fun m n => { m with timeUnixMs := n }),
    .textMap 5 "fields" Event.fields (fun m t => { m with fields := t })]

instance : Message Event := ⟨"events.Event", Event.codec⟩

/-- Asks a guest to handle an event. -/
structure EventRequest where
  event : Option Event
  deriving Repr, DecidableEq, Inhabited

instance : Message EventRequest where
  typeName := "plugin.HandleEventRequest"
  codec :=
    { name := "HandleEventRequest"
      default := ⟨none⟩
      fields := [.message 1 "event" Event.codec EventRequest.event (fun _ e => ⟨e⟩)] }

/-- A guest's answer to an event: the event to go on with, or why there is none. -/
structure EventResponse where
  success : Bool
  error : String
  event : Option Event
  deriving Repr, DecidableEq, Inhabited

instance : Message EventResponse where
  typeName := "plugin.HandleEventResponse"
  codec :=
    { name := "HandleEventResponse"
      default := ⟨false, "", none⟩
      fields := [
        .bool 1 "success" EventResponse.success (fun m b => { m with success := b }),
        .text 2 "error" EventResponse.error (fun m s => { m with error := s }),
        .message 3 "event" Event.codec EventResponse.event (fun m e => { m with event := e })] }

/-- Asks a guest to change headers. -/
structure HeadersRequest where
  headers : TextMap
  deriving Repr, DecidableEq, Inhabited

instance : Message HeadersRequest where
  typeName := "plugin.RewriteHeadersRequest"
  codec :=
    { name := "RewriteHeadersRequest"
      default := ⟨.empty⟩
      fields := [.textMap 1 "headers" HeadersRequest.headers (fun _ t => ⟨t⟩)] }

/-- A guest's answer to headers: the headers to go on with, or why there are none. -/
structure HeadersResponse where
  success : Bool
  error : String
  headers : TextMap
  deriving Repr, DecidableEq, Inhabited

instance : Message HeadersResponse where
  typeName := "plugin.RewriteHeadersResponse"
  codec :=
    { name := "RewriteHeadersResponse"
      default := ⟨false, "", .empty⟩
      fields := [
        .bool 1 "success" HeadersResponse.success (fun m b => { m with success := b }),
        .text 2 "error" HeadersResponse.error (fun m s => { m with error := s }),
        .textMap 3 "headers" HeadersResponse.headers (fun m t => { m with headers := t })] }

end SandboxPool
