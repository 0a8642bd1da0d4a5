import SandboxPool.Proofs.Guest.Law
import SandboxPool.Proofs.Host.Imports
import SandboxPool.Proofs.Host.Transfers

/-!
# Bytes across the boundary

A guest sends bytes by copying them into a fresh block and naming the block to the host, and
receives them by asking for their number, allocating a block for them and having the host fill it.
Both directions are followed here from end to end: what the guest had is what the host gets under
the handle, and what the host has under a handle is what the guest reads.
-/

namespace SandboxPool

/-! ## The guest's side -/

namespace GuestM

variable {imports : Imports} {s s' : GuestState} {α β : Type}

/-- A guest that has done one thing goes on with the next. -/
theorem bind_ok {act : GuestM α} {next : α → GuestM β} {a : α} (h : act s = (.ok a, s')) :
    (act >>= next) s = next a s' := by
  show ExceptT.bindCont next (act s).1 (act s).2 = _
  rw [h]
  rfl

/-- A guest that stops does nothing more. -/
theorem bind_error {act : GuestM α} {next : α → GuestM β} {stop : Stop}
    (h : act s = (.error stop, s')) : (act >>= next) s = (.error stop, s') := by
  show ExceptT.bindCont next (act s).1 (act s).2 = _
  rw [h]
  rfl

theorem pointer_eq {address : Nat} (h : address ≤ Heap.lastAddress) :
    pointer address s = (.ok (Int32.ofNat address), s) := by
  have hsmall : address < 0x80000000 := by
    unfold Heap.lastAddress at h
    omega
  rw [pointer, if_pos hsmall]
  rfl

/-- Storing data gives a pointer to it, unless the heap has grown past the last pointer. -/
theorem store_eq {data : List UInt8} {start : Nat} {heap : Heap}
    (hstore : s.heap.store data = .ok (start, heap)) (hlast : start ≤ Heap.lastAddress) :
    store data s = (.ok (Int32.ofNat start), { s with heap }) := by
  have hheap : onHeap (·.store data) s = (.ok start, { s with heap }) := by
    rw [onHeap_eq, hstore]
    rfl
  rw [store, bind_ok hheap, pointer_eq hlast]

/-- A guest that stores bytes gets a pointer to a block that holds them, or fails for want of one
that a pointer could reach. -/
theorem store_cases (data : List UInt8) (s : GuestState) :
    (Heap.lastAddress < Heap.roundUp 8 s.heap.next + data.length ∧
      ∃ e, store data s = (.error (.failure e), s)) ∨
    ∃ heap, store data s = (.ok (Int32.ofNat (Heap.roundUp 8 s.heap.next)), { s with heap }) ∧
      Heap.roundUp 8 s.heap.next + data.length ≤ Heap.lastAddress ∧
      heap.memory.Holds (Heap.roundUp 8 s.heap.next) data := by
  rcases s.heap.store_cases data with ⟨hbeyond, e, hrefused⟩ | ⟨heap, hstored, hfits, hheld⟩
  · refine .inl ⟨hbeyond, e, ?_⟩
    have hheap : onHeap (·.store data) s = (.error (.failure e), s) := by
      rw [onHeap_eq, hrefused]
      rfl
    rw [store, bind_error hheap]
  · exact .inr ⟨heap, store_eq hstored (by omega), hfits, hheld⟩

/-- So does a block that is not written to yet. -/
theorem alloc_eq {length start : Nat} {heap : Heap}
    (halloc : s.heap.alloc length = .ok (start, heap)) (hlast : start ≤ Heap.lastAddress) :
    alloc length s = (.ok (Int32.ofNat start), { s with heap }) := by
  have hheap : onHeap (·.alloc length) s = (.ok start, { s with heap }) := by
    rw [onHeap_eq, halloc]
    rfl
  rw [alloc, bind_ok hheap, pointer_eq hlast]

/-- A guest loads what the memory holds there. -/
theorem load_eq {start length : Nat} {data : List UInt8} (hlast : start ≤ Heap.lastAddress)
    (hread : s.heap.memory.read start length = .ok data) :
    load (Int32.ofNat start) length s = (.ok data, s) := by
  have hneg : ¬ Int32.ofNat start < 0 := Int32.not_lt.mpr (nonneg_ofNat hlast)
  have hheap : s.heap.read (Int32.ofNat start).toNatClampNeg length = .ok data := by
    rw [toNatClampNeg_ofNat hlast]
    exact hread
  rw [load, if_neg hneg]
  show ofOutcome (s.heap.read (Int32.ofNat start).toNatClampNeg length) s = _
  rw [hheap]
  rfl

/-- A call of a host function that returns one number. -/
theorem callI32_eq {group name : String} {args : List Value} {v : Int32}
    (h : call imports group name args s = (.ok [.i32 v], s')) :
    callI32 imports group name args s = (.ok v, s') := by
  rw [callI32, bind_ok h]
  rfl

/-- A call of a function of the interop group, whose action is known. -/
theorem call_offered (hoffered : imports.Offers Capability.interop.functions) {name : String}
    {f : HostFunction} (hf : ("interop", name, f) ∈ Capability.interop.functions)
    {args vs : List Value} {memory : Memory} {host : HostState}
    (hcheck : f.type.check ("interop" ++ "." ++ name) args = .ok ())
    (hrun : f.action.run s.heap.memory args s.host = (.done (.ok vs), memory, host)) :
    call imports "interop" name args s = (.ok vs, ⟨{ s.heap with memory }, host⟩) := by
  have hfound : imports.get? "interop" name = some f := hoffered _ hf
  have hcalled : f.call ("interop" ++ "." ++ name) args s.heap.memory s.host =
      (.done (.ok vs), memory, host) := by
    simp only [HostFunction.call, hcheck, hrun]
  rw [call_found hfound hcalled]
  rfl

/-- Bytes that fit in a fresh block get a handle under which the host finds them. -/
theorem sendMessage_eq (hoffered : imports.Offers Capability.interop.functions)
    {data : List UInt8} (hfits : Heap.roundUp 8 s.heap.next + data.length ≤ Heap.lastAddress)
    {handle : Int32} {t : HandleTable}
    (hinsert : s.host.handles.insert ⟨data, none⟩ = .ok (handle, t)) :
    ∃ s', sendMessage imports data s = (.ok handle, s') ∧ s'.host.handles = t := by
  rcases store_cases data s with ⟨hbeyond, -⟩ | ⟨heap, hstored, -, hheld⟩
  · exact absurd hfits (Nat.not_le_of_lt hbeyond)
  have hsmall : ¬ 0x80000000 ≤ data.length := by
    unfold Heap.lastAddress at hfits
    omega
  have hread : heap.memory.guestRead (Int32.ofNat (Heap.roundUp 8 s.heap.next))
      (Int32.ofNat data.length) = .ok data := by
    rw [Memory.guestRead_of_natural (toInt_ofNat (by omega)) (toInt_ofNat (by omega)),
      Memory.read_of_inside hheld.inside, hheld.slice]
  have hrun := Buffers.Transfer.run_register_of_stored hread hinsert
  have hcall := call_offered hoffered (s := { s with heap })
    (show ("interop", "registerBuffer", ⟨⟨[.i32, .i32], [.i32]⟩, .registerBuffer⟩) ∈ _ by decide)
    rfl hrun
  rw [sendMessage, bind_ok hstored, if_neg hsmall]
  exact ⟨_, callI32_eq hcall, rfl⟩

/-- The bytes under a handle are read by a guest that has a block for them, and stay there. -/
theorem receiveMessage_eq (hoffered : imports.Offers Capability.interop.functions)
    {handle : Int32} {data : List UInt8} {type : Option String}
    (hresolve : s.host.handles.resolve handle = .ok ⟨data, type⟩)
    {start : Nat} {heap : Heap} (halloc : s.heap.alloc data.length = .ok (start, heap)) :
    ∃ s', receiveMessage imports handle s = (.ok data, s') ∧ s'.host = s.host := by
  -- The guest asks for the size, allocates that much, and has the host copy into what it allocated.
  obtain ⟨hlast, hsize⟩ := Heap.alloc_inside halloc
  have hlive := HandleTable.live_of_resolve hresolve
  have hsizeRun : HostAction.bufferSize.run s.heap.memory [.i32 handle] s.host =
      (.done (.ok [.i32 (Int32.ofNat data.length)]), s.heap.memory, s.host) := by
    unfold Heap.lastAddress at hlast
    rw [Buffers.Transfer.run_size_of_live hlive, if_pos (by dsimp only; omega)]
  have hcallSize : call imports "interop" "bufferSize" [.i32 handle] s =
      (.ok [.i32 (Int32.ofNat data.length)], s) :=
    call_offered (f := ⟨⟨[.i32], [.i32]⟩, .bufferSize⟩) hoffered (by decide) rfl hsizeRun
  have hcopyRun : HostAction.readBuffer.run heap.memory
      [.i32 handle, .i32 (Int32.ofNat start)] s.host =
      (.done (.ok []), heap.memory.setAll start data, s.host) := by
    rw [Buffers.Transfer.run_read_of_live hlive,
      Memory.guestWrite_of_natural (toInt_ofNat (by omega)), Memory.write_of_fits hsize]
  have hcallCopy : call imports "interop" "readBuffer"
      [.i32 handle, .i32 (Int32.ofNat start)] { s with heap } =
      (.ok [], ⟨{ heap with memory := heap.memory.setAll start data }, s.host⟩) :=
    call_offered (f := ⟨⟨[.i32, .i32], []⟩, .readBuffer⟩) hoffered (by decide) rfl hcopyRun
  -- The size comes back as a signed number, and is used as a natural one.
  have hneg : ¬ Int32.ofNat data.length < 0 :=
    Int32.not_lt.mpr (nonneg_ofNat (by omega))
  have hnumber : (Int32.ofNat data.length).toNatClampNeg = data.length :=
    toNatClampNeg_ofNat (by omega)
  refine ⟨⟨{ heap with memory := heap.memory.setAll start data }, s.host⟩, ?_, rfl⟩
  rw [receiveMessage, bind_ok (callI32_eq hcallSize), if_neg hneg, hnumber]
  show (alloc data.length >>= fun p => call imports "interop" "readBuffer"
    [.i32 handle, .i32 p] >>= fun _ => load p data.length) s = _
  rw [bind_ok (alloc_eq halloc (by omega)), bind_ok hcallCopy]
  exact load_eq (by omega) (Memory.read_setAll hsize)

end GuestM
end SandboxPool
