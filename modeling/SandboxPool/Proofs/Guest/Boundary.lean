import SandboxPool.Proofs.Guest.Interop
import SandboxPool.Proofs.Host.Effects
import SandboxPool.Proofs.Message.RoundTrip

/-!
# Messages cross the boundary unchanged, and stay

A message that a guest or the host has sent lies in a buffer of the host. The guest's memory has no
part in it any more, so nothing that becomes of that memory reaches the message, and the table of
handles changes by storing buffers under handles that are not live and by dropping the handles
that are named. Until its own handle is dropped, or the table starts over, the message is what it
was.
-/

namespace SandboxPool

open Wire

/-! ## Tables in which a handle is spared -/

/-- A table after operations of which none dropped the handle. -/
def HandleTable.Spares (handle : Int32) (t t' : HandleTable) : Prop :=
  ∃ ops, t.Run ops t' ∧ .discard handle ∉ ops

namespace HandleTable.Spares

variable {handle other : Int32} {t t' t'' : HandleTable} {buffer : Buffer}

theorem refl (handle : Int32) (t : HandleTable) : Spares handle t t :=
  ⟨[], .nil t, List.not_mem_nil⟩

theorem trans (h : Spares handle t t') (h' : Spares handle t' t'') : Spares handle t t'' := by
  obtain ⟨ops, hrun, hheld⟩ := h
  obtain ⟨rest, hfollowing, hheld'⟩ := h'
  refine ⟨ops ++ rest, hrun.append hfollowing, ?_⟩
  intro hmember
  rcases List.mem_append.mp hmember with hbefore | hafter
  · exact hheld hbefore
  · exact hheld' hafter

/-- A buffer that is stored gets a handle that was free, so those in use are spared. -/
theorem insert (hstored : t.insert buffer = .ok (other, t')) : Spares handle t t' :=
  ⟨[.insert buffer other], .insert hstored (.nil t'), by simp⟩

/-- Dropping another handle spares this one. -/
theorem discard (t : HandleTable) (hne : other ≠ handle) :
    Spares handle t (t.discard other).2 :=
  ⟨[.discard other], .discard (.nil _), by simpa using Ne.symm hne⟩

/-- A handle that was given by name, and is not the one to spare, may be dropped. -/
theorem discard_given {given : Outcome Int32} (h : given = .ok other) (hne : given ≠ .ok handle)
    (t : HandleTable) : Spares handle t (t.discard other).2 := by
  apply discard
  intro heq
  apply hne
  rw [h, heq]

theorem of_eq (h : t' = t) : Spares handle t t' := by
  rw [h]
  exact refl handle t

/-- A spared handle leads where it did. -/
theorem resolve (h : Spares handle t t') (hformed : t.WellFormed)
    (hlive : t.get? handle = some buffer) : t'.resolve handle = .ok buffer := by
  obtain ⟨ops, hrun, hheld⟩ := h
  rw [HandleTable.resolve, hrun.get? hformed hlive hheld]

end HandleTable.Spares

/-- An action drops the handle that its first argument names. -/
def HostAction.Drops (args : List Value) (handle : Int32) : HostAction → Prop
  | discardBuffer | upsertLock _ => i32Arg args 0 "handle" = .ok handle
  | _ => False

namespace HostAction

variable {memory : Memory} {args : List Value} {h : HostState} {handle : Int32}

/-- An action spares every handle that it does not drop. -/
theorem run_spares {a : HostAction} (hkept : ¬ a.Drops args handle) :
    HandleTable.Spares handle h.handles (a.run memory args h).2.2.handles := by
  cases a with
  | abort layout => exact .of_eq Diagnostics.abort_logs.handles
  | trace layout => exact .of_eq Diagnostics.trace_logs.handles
  | seed => exact .refl handle h.handles
  | takeToken store layout => exact .of_eq (Tokens.take_permitted store).handles
  | releaseTokens store layout => exact .of_eq (Tokens.release_permitted store).handles
  | registerBuffer =>
    simp only [run]
    split
    · next vs h' hdone =>
      obtain ⟨bytes, given, handles, event, hstored, -, rfl⟩ := Buffers.register_eq_ok hdone
      exact .insert hstored
    · exact .refl handle h.handles
  | bufferSize => exact .refl handle h.handles
  | readBuffer =>
    simp only [run]
    split <;> exact .refl handle h.handles
  -- What is not an `i32` is refused before the table is read.
  | discardBuffer =>
    cases hgiven : i32Arg args 0 "handle" with
    | error e =>
      simp only [run, Buffers.drop, hgiven, bind, Except.bind]
      exact .refl handle h.handles
    | ok other =>
      simp only [run, Buffers.drop, hgiven, bind, Except.bind]
      exact .discard_given hgiven hkept h.handles
  -- The handle goes with the request, whether or not the client is asked afterwards.
  | upsertLock client =>
    show HandleTable.Spares handle h.handles (Locks.upsert client args h).2.handles
    rw [Locks.upsert_handles, Locks.request]
    cases hgiven : i32Arg args 0 "handle" with
    | error e => exact .refl handle h.handles
    | ok other =>
      exact .discard_given hgiven hkept h.handles
  | custom behaviour => cases behaviour <;> exact .refl handle h.handles

end HostAction

/-! ## What may happen in between -/

namespace GuestM

/-- The host is not asked for what happens on the heap. -/
theorem onHeap_host {α : Type} (f : Heap → Outcome (α × Heap)) (s : GuestState) :
    (onHeap f s).2.host = s.host := by
  rw [onHeap_eq]
  cases f s.heap <;> rfl

/-- An address that a heap gave is made into a pointer without the host. -/
theorem onHeap_pointer_host (f : Heap → Outcome (Nat × Heap)) (s : GuestState) :
    ((onHeap f >>= pointer) s).2.host = s.host := by
  have hhost := onHeap_host f s
  have hbind : (onHeap f >>= pointer) s =
      ExceptT.bindCont pointer (onHeap f s).1 (onHeap f s).2 := rfl
  rw [hbind]
  generalize onHeap f s = out at hhost ⊢
  rcases out with ⟨e | address, s'⟩
  · exact hhost
  · show (pointer address s').2.host = s.host
    rw [pointer]
    split <;> exact hhost

end GuestM

/-- Something that the guest or the host does. Messages that the guest sends or receives are made
of these: it stores bytes or allocates a block, and calls. The host reads a message without
changing anything. -/
inductive Deed where
  /-- The guest allocates a block. -/
  | alloc (length : Nat)
  /-- The guest copies bytes into a fresh block. -/
  | store (data : List UInt8)
  /-- The guest writes bytes wherever it likes. -/
  | poke (address : Nat) (data : List UInt8)
  /-- The guest's memory grows. -/
  | grow (pages : Nat)
  /-- The guest calls a host function. -/
  | call (group name : String) (args : List Value)
  /-- The host sends a message. -/
  | send (k : MessageKind) (order : EntryOrder) (m : k.Value)
  /-- The host reads a message and drops its handle. -/
  | consume (k : MessageKind) (handle : Int32)
  /-- The host drops a handle. -/
  | discard (handle : Int32)

/-- The guest and the host with another table of handles. -/
def GuestState.withHandles (s : GuestState) (t : HandleTable) : GuestState :=
  { s with host := { s.host with handles := t } }

namespace Deed

variable {imports : Imports} {handle : Int32}

/-- What a deed leaves behind, whether or not it came to its end. -/
def after (imports : Imports) : Deed → GuestState → GuestState
  | alloc length, s => (GuestM.alloc length s).2
  | store data, s => (GuestM.store data s).2
  | poke address data, s => (GuestM.poke address data s).2
  | grow pages, s => (GuestM.grow pages s).2
  | call group name args, s => (GuestM.call imports group name args s).2
  | send _ order m, s =>
    match Buffers.sendIn order s.host.handles m with
    | .ok (_, t) => s.withHandles t
    | .error _ => s
  | consume k handle, s => s.withHandles (Buffers.consume k.Value s.host.handles handle).2
  | discard handle, s => s.withHandles (s.host.handles.discard handle).2

/-- What deeds leave behind, one after another. -/
def afterAll (imports : Imports) : List Deed → GuestState → GuestState
  | [], s => s
  | d :: rest, s => afterAll imports rest (d.after imports s)

/-- A deed does not drop the handle. -/
def Spares (imports : Imports) (handle : Int32) : Deed → Prop
  | call group name args =>
    ∀ f, imports.get? group name = some f → ¬ f.action.Drops args handle
  | consume _ other | discard other => other ≠ handle
  | _ => True

/-- One deed spares every handle but the one that it is told to drop. -/
theorem after_spares {d : Deed} (h : d.Spares imports handle) (s : GuestState) :
    HandleTable.Spares handle s.host.handles (d.after imports s).host.handles := by
  cases d with
  | alloc length => exact .of_eq (congrArg HostState.handles (GuestM.onHeap_pointer_host _ s))
  | store data => exact .of_eq (congrArg HostState.handles (GuestM.onHeap_pointer_host _ s))
  | poke address data => exact .of_eq (congrArg HostState.handles (GuestM.onHeap_host _ s))
  | grow pages => exact .of_eq (congrArg HostState.handles (GuestM.onHeap_host _ s))
  -- An import that the guest does not have leaves everything as it was; one it has ran an action.
  | call group name args =>
    show HandleTable.Spares handle _ (GuestM.call imports group name args s).2.host.handles
    cases hfound : imports.get? group name with
    | none =>
      rw [GuestM.call_missing hfound]
      exact .refl handle _
    | some f =>
      rcases hcalled : f.call (group ++ "." ++ name) args s.heap.memory s.host with
        ⟨reply, memory, host⟩
      rw [GuestM.call_found hfound hcalled]
      show HandleTable.Spares handle s.host.handles host.handles
      have hhost : host = (f.call (group ++ "." ++ name) args s.heap.memory s.host).2.2 := by
        rw [hcalled]
      rw [hhost, HostFunction.call]
      split
      · exact .refl handle _
      · exact HostAction.run_spares (h f hfound)
  | send k order m =>
    simp only [after]
    split
    · next hstored => exact .insert hstored
    · exact .refl handle _
  | consume k other => exact .discard _ h
  | discard other => exact .discard _ h

/-- Deeds in a row spare a handle that each of them spares. -/
theorem afterAll_spares {deeds : List Deed} (h : ∀ d ∈ deeds, d.Spares imports handle)
    (s : GuestState) :
    HandleTable.Spares handle s.host.handles (afterAll imports deeds s).host.handles := by
  induction deeds generalizing s with
  | nil => exact .refl handle _
  | cons d rest ih =>
    have hfirst := after_spares (h d List.mem_cons_self) s
    exact hfirst.trans (ih (fun e he => h e (List.mem_cons_of_mem d he)) _)

/-- A buffer that was stored is under its handle as long as the handle is spared. -/
theorem afterAll_resolve {t t' : HandleTable} {buffer : Buffer} {s : GuestState}
    {deeds : List Deed} (hformed : t.WellFormed) (hstored : t.insert buffer = .ok (handle, t'))
    (htable : s.host.handles = t') (hspared : ∀ d ∈ deeds, d.Spares imports handle) :
    (afterAll imports deeds s).host.handles.resolve handle = .ok buffer := by
  have hlive : t'.get? handle = some buffer := by
    rw [(HandleTable.insert_get? hformed hstored).2, if_pos rfl]
  have hkept := afterAll_spares hspared s
  rw [htable] at hkept
  exact hkept.resolve (HandleTable.insert_wellFormed hformed hstored) hlive

end Deed

/-! ## Reading what is under a handle -/

/-- An outcome that can be looked at only for its value. -/
theorem eq_ok_of_toOption {α ε : Type} {r : Except ε α} {a : α} (h : r.toOption = some a) :
    r = .ok a := by
  cases r with
  | error e => cases h
  | ok b => exact congrArg Except.ok (Option.some.inj h)

namespace Buffers

variable {M : Type} [Message M] {t : HandleTable} {handle : Int32} {bytes : List UInt8}

/-- What a type of messages makes of bytes. -/
def reading (M : Type) [Message M] (bytes : List UInt8) : Outcome M :=
  match Message.decode M bytes with
  | .ok m => .ok m
  | .error e => .error ⟨.undecodable (Message.typeName M) e.message, [e.message]⟩

/-- A message under a handle that leads nowhere is refused as stale. -/
theorem receive_dead (h : t.resolve handle = refuse (.staleHandle handle)) :
    receive M t handle = refuse (.staleHandle handle) := by
  simp only [receive, h, refuse, bind, Except.bind]

/-- Bytes without a type are read as whatever is asked for. -/
theorem receive_untyped (h : t.resolve handle = .ok ⟨bytes, none⟩) :
    receive M t handle = reading M bytes := by
  simp only [receive, h, bind, Except.bind, reading]
  rfl

/-- So are bytes of the very type that is asked for. -/
theorem receive_typed (h : t.resolve handle = .ok ⟨bytes, some (Message.typeName M)⟩) :
    receive M t handle = reading M bytes := by
  have hsame : ¬ Message.typeName M ≠ Message.typeName M := fun hne => hne rfl
  simp only [receive, h, bind, Except.bind, if_neg hsame, reading]
  rfl

/-- A small message is read back from its bytes, whatever order its entries stand in. -/
theorem reading_encodeIn {k : MessageKind} {order : EntryOrder} {m : k.Value}
    (h : (Message.encodeIn order m).length < 2 ^ 63) :
    reading k.Value (Message.encodeIn order m) = .ok m := by
  simp only [reading, k.decode_encodeIn order m h]

/-- A message of another type is refused, and the refusal names both types. -/
theorem receive_other {type : String} (h : t.resolve handle = .ok ⟨bytes, some type⟩)
    (hne : type ≠ Message.typeName M) : receive M t handle =
      refuse (.badArgument "handle"
        ("holds a " ++ type ++ ", expected a " ++ Message.typeName M)) := by
  simp only [receive, h, bind, Except.bind, if_pos hne]
  rfl

end Buffers

/-! ## Messages in both directions -/

namespace GuestState

/-- Bytes from the guest are under a handle, and every type of messages reads them there. -/
structure Offers (s : GuestState) (handle : Int32) (bytes : List UInt8) : Prop where
  found : s.host.handles.resolve handle = .ok ⟨bytes, none⟩
  read : ∀ k : MessageKind,
    Buffers.receive k.Value s.host.handles handle = Buffers.reading k.Value bytes

/-- A message from the host, written as `bytes`, is under a handle: a guest that has room for the
bytes reads them and leaves the host as it was, the host reads the message (no vector of bytes
reaches `2 ^ 63`), and it is refused to every other type of messages. -/
structure Delivers (s : GuestState) (imports : Imports) (handle : Int32) (k : MessageKind)
    (m : k.Value) (bytes : List UInt8) : Prop where
  found : s.host.handles.resolve handle = .ok ⟨bytes, some (Message.typeName k.Value)⟩
  guest : ∀ block, s.heap.alloc bytes.length = .ok block →
    ∃ s', GuestM.receiveMessage imports handle s = (.ok bytes, s') ∧ s'.host = s.host
  host : bytes.length < 2 ^ 63 → Buffers.receive k.Value s.host.handles handle = .ok m
  others : ∀ k' : MessageKind, k' ≠ k → Buffers.receive k'.Value s.host.handles handle =
    refuse (.badArgument "handle" ("holds a " ++ Message.typeName k.Value ++ ", expected a " ++
      Message.typeName k'.Value))

variable {imports : Imports} {s : GuestState} {handle : Int32}

/-- Bytes without a type under a live handle are offered to every type of messages. -/
theorem offers_of_resolve {bytes : List UInt8}
    (h : s.host.handles.resolve handle = .ok ⟨bytes, none⟩) : s.Offers handle bytes where
  found := h
  read _ := Buffers.receive_untyped h

/-- A message under a live handle is delivered to a guest that may call the functions for it. -/
theorem delivers_of_resolve (hoffered : imports.Offers Capability.interop.functions)
    {k : MessageKind} {order : EntryOrder} {m : k.Value} (h : s.host.handles.resolve handle =
      .ok ⟨Message.encodeIn order m, some (Message.typeName k.Value)⟩) :
    s.Delivers imports handle k m (Message.encodeIn order m) where
  found := h
  guest _ halloc := GuestM.receiveMessage_eq hoffered h halloc
  host hlength := by rw [Buffers.receive_typed h, Buffers.reading_encodeIn hlength]
  others _ hne := Buffers.receive_other h fun heq => hne (MessageKind.typeName_injective heq).symm

/-- Messages cross unchanged in both directions. Let a guest have the functions that this takes,
which the capability defines, whatever others are beside them. From any memory, and with any table
that has room for one more buffer: bytes for which there is a block below `2 ^ 31` can be sent by
the guest, and the host finds them, untagged, under their handle; a message can be sent by the host,
its maps written in any order (`Buffers.send` keeps that of the keys), and guest and host read it
under its handle. Whatever guest and host do from then on, it stays so, as long as they do not drop
that very handle and the table does not start over. -/
theorem messages_cross (hoffered : imports.Offers Capability.interop.functions) (s : GuestState)
    (hreachable : s.host.handles.Reachable)
    (hroom : s.host.handles.size < HandleTable.capacity) :
    (∀ bytes : List UInt8, Heap.roundUp 8 s.heap.next + bytes.length < 2 ^ 31 →
      ∃ handle s', GuestM.sendMessage imports bytes s = (.ok handle, s') ∧
        ∀ deeds : List Deed, (∀ d ∈ deeds, d.Spares imports handle) →
          (Deed.afterAll imports deeds s').Offers handle bytes) ∧
    ∀ (k : MessageKind) (order : EntryOrder) (m : k.Value),
      ∃ handle t, Buffers.sendIn order s.host.handles m = .ok (handle, t) ∧
        ∀ deeds : List Deed, (∀ d ∈ deeds, d.Spares imports handle) →
          (Deed.afterAll imports deeds (s.withHandles t)).Delivers imports handle k m
            (Message.encodeIn order m) := by
  have hformed := hreachable.wellFormed
  constructor
  · intro bytes hfits
    obtain ⟨handle, t, hstored⟩ := HandleTable.insert_of_room hformed hroom ⟨bytes, none⟩
    have hblock : Heap.roundUp 8 s.heap.next + bytes.length ≤ Heap.lastAddress := by
      unfold Heap.lastAddress
      omega
    obtain ⟨s', hsend, htable⟩ := GuestM.sendMessage_eq hoffered hblock hstored
    exact ⟨handle, s', hsend, fun deeds hspared =>
      offers_of_resolve (Deed.afterAll_resolve hformed hstored htable hspared)⟩
  · intro k order m
    obtain ⟨handle, t, hstored⟩ := HandleTable.insert_of_room hformed hroom
      ⟨Message.encodeIn order m, some (Message.typeName k.Value)⟩
    exact ⟨handle, t, hstored, fun deeds hspared =>
      delivers_of_resolve hoffered (Deed.afterAll_resolve hformed hstored rfl hspared)⟩

/-- The functions of a guest that can exchange messages and nothing else. -/
def interopOnly : Imports := (Namespace.empty.register "interop" Capability.interop.builtIns).2

/-- A guest and its host before anything has happened. -/
def untouched : GuestState := ⟨.ofPages 0, Building.freshHost 0 default .empty⟩

/-- The guest stores bytes, lets its memory grow, writes over the stored bytes and sends them to
the host, which sends a message itself. -/
def meanwhile : List Deed :=
  [.store [7, 7], .grow 1, .poke 16 [9], .call "interop" "registerBuffer" [.i32 16, .i32 2],
    .send .lock MessageKind.backwards MessageKind.hollowLock]

theorem meanwhile_spares (handle : Int32) : ∀ d ∈ meanwhile, d.Spares interopOnly handle := by
  have hcall : (Deed.call "interop" "registerBuffer" [.i32 16, .i32 2]).Spares interopOnly
      handle := by
    intro f hf
    have hfound : interopOnly.get? "interop" "registerBuffer" =
        some ⟨⟨[.i32, .i32], [.i32]⟩, .registerBuffer⟩ := by decide
    rw [← Option.some.inj (hfound.symm.trans hf)]
    exact id
  simp only [meanwhile, List.forall_mem_cons]
  exact ⟨trivial, trivial, trivial, hcall, trivial, List.forall_mem_nil _⟩

/-- Bytes and a message cross, and are still there after the guest has done other things. -/
theorem messages_cross_meanwhile :
    (∃ handle s', GuestM.sendMessage interopOnly [1, 0, 255] untouched = (.ok handle, s') ∧
      (Deed.afterAll interopOnly meanwhile s').Offers handle [1, 0, 255]) ∧
    ∃ handle t, Buffers.sendIn .byKey untouched.host.handles MessageKind.hollowLock =
        .ok (handle, t) ∧
      (Deed.afterAll interopOnly meanwhile (untouched.withHandles t)).Delivers interopOnly handle
        .lock MessageKind.hollowLock (Message.encodeIn .byKey MessageKind.hollowLock) := by
  have hoffered : interopOnly.Offers Capability.interop.functions := by decide
  obtain ⟨hfromGuest, hfromHost⟩ := messages_cross hoffered untouched .empty (by decide)
  obtain ⟨handle, s', hsend, hstays⟩ := hfromGuest [1, 0, 255] (by decide)
  obtain ⟨handle', t, hsend', hstays'⟩ := hfromHost .lock .byKey MessageKind.hollowLock
  exact ⟨⟨handle, s', hsend, hstays _ (meanwhile_spares handle)⟩,
    ⟨handle', t, hsend', hstays' _ (meanwhile_spares handle')⟩⟩

end GuestState
end SandboxPool
