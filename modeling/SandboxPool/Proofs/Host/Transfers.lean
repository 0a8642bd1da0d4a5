import SandboxPool.Proofs.Handle.History
import SandboxPool.Proofs.Host.Effects
import SandboxPool.Proofs.Memory.Ranges

/-!
# Buffers that guests register, measure, read and discard

A guest names ranges of its memory and buffers of its host by numbers, any of which may be wrong.
`Transfer.Granted` says when a call succeeds, `Transfer.Done` what it has then done to the guest's
memory and to the handles, and `Transfer.Refused` for which reason it fails otherwise. All of them
speak of the memory as it is at the call, and of the handles as a map (`HandleTable.get?`).
-/

namespace SandboxPool
namespace Buffers

/-- A call of one of the functions on buffers, with its arguments. -/
inductive Transfer where
  | register (pointer length : Int32)
  | size (handle : Int32)
  | read (handle pointer : Int32)
  | discard (handle : Int32)
  deriving Repr, DecidableEq

namespace Transfer

/-- What the function is called. -/
def name : Transfer → String
  | register .. => "registerBuffer"
  | size _ => "bufferSize"
  | read .. => "readBuffer"
  | discard _ => "discardBuffer"

def function : Transfer → HostFunction
  | register .. => ⟨⟨[.i32, .i32], [.i32]⟩, .registerBuffer⟩
  | size _ => ⟨⟨[.i32], [.i32]⟩, .bufferSize⟩
  | read .. => ⟨⟨[.i32, .i32], []⟩, .readBuffer⟩
  | discard _ => ⟨⟨[.i32], []⟩, .discardBuffer⟩

def arguments : Transfer → List Value
  | register pointer length => [.i32 pointer, .i32 length]
  | size handle => [.i32 handle]
  | read handle pointer => [.i32 handle, .i32 pointer]
  | discard handle => [.i32 handle]

/-- The number of live handles. -/
noncomputable def live (t : HandleTable) : Nat := {handle | (t.get? handle).isSome}.ncard

/-- The memory and the handles allow a call. -/
inductive Granted (memory : Memory) (t : HandleTable) : Transfer → Prop where
  | register {pointer length : Int32} (hpointer_natural : 0 ≤ pointer.toInt)
      (hlength_natural : 0 ≤ length.toInt) (hinside : pointer.toInt + length.toInt ≤ memory.size)
      (hroom : live t < HandleTable.capacity) : Granted memory t (register pointer length)
  | size {handle buffer} (hthere : t.get? handle = some buffer)
      (hsmall : buffer.bytes.length < 2 ^ 31) : Granted memory t (size handle)
  | read {handle pointer : Int32} {buffer} (hthere : t.get? handle = some buffer)
      (hnatural : 0 ≤ pointer.toInt) (hinside : pointer.toInt + buffer.bytes.length ≤ memory.size) :
      Granted memory t (read handle pointer)
  | discard {handle} : Granted memory t (discard handle)

/-- Why a call fails. Of the reasons that apply it is the first one. -/
inductive Refused (memory : Memory) (t : HandleTable) : Transfer → Failure → Prop where
  | pointer {pointer length : Int32} (hnegative : pointer.toInt < 0) :
      Refused memory t (register pointer length)
        (Cause.badArgument "ptr" (toString pointer ++ " is negative"))
  | length {pointer length : Int32} (hnatural : 0 ≤ pointer.toInt) (hnegative : length.toInt < 0) :
      Refused memory t (register pointer length)
        (Cause.badArgument "len" (toString length ++ " is negative"))
  | range {pointer length : Int32} {a n : Nat} (hstart : pointer.toInt = a)
      (hnumber : length.toInt = n) (hbeyond : memory.size < a + n) :
      Refused memory t (register pointer length) (Cause.outOfBounds a n memory.size)
  | full {pointer length : Int32} {a n : Nat} (hstart : pointer.toInt = a)
      (hnumber : length.toInt = n) (hinside : a + n ≤ memory.size)
      (hfull : HandleTable.capacity ≤ live t) :
      Refused memory t (register pointer length) HandleTable.overflow
  | unmeasured {handle} (hdead : t.get? handle = none) :
      Refused memory t (size handle) (Cause.staleHandle handle)
  | large {handle buffer} (hthere : t.get? handle = some buffer)
      (hlarge : 2 ^ 31 ≤ buffer.bytes.length) :
      Refused memory t (size handle) (Cause.badArgument "handle" "buffer too large")
  | unread {handle pointer : Int32} (hdead : t.get? handle = none) :
      Refused memory t (read handle pointer) (Cause.staleHandle handle)
  | target {handle pointer : Int32} {buffer} (hthere : t.get? handle = some buffer)
      (hnegative : pointer.toInt < 0) :
      Refused memory t (read handle pointer)
        (Cause.badArgument "ptr" (toString pointer ++ " is negative"))
  | targetRange {handle pointer : Int32} {buffer} {a : Nat} (hthere : t.get? handle = some buffer)
      (hstart : pointer.toInt = a) (hbeyond : memory.size < a + buffer.bytes.length) :
      Refused memory t (read handle pointer)
        (Cause.outOfBounds a buffer.bytes.length memory.size)

/-- What a call that succeeds has done: its results, the memory and the host afterwards. -/
inductive Done (memory : Memory) (h : HostState) :
    Transfer → List Value → Memory → HostState → Prop where
  /-- The bytes in the range are under a fresh handle. -/
  | register {pointer length : Int32} {a n : Nat} {handle after} (hstart : pointer.toInt = a)
      (hnumber : length.toInt = n) (hfresh : h.handles.get? handle = none)
      (hstored : after.handles.get? =
        Function.update h.handles.get? handle (some ⟨memory.slice a n, none⟩))
      (hrest : { h with handles := after.handles }.LoggedAtMost after) :
      Done memory h (register pointer length) [.i32 handle] memory after
  | size {handle number : Int32} {buffer} (hthere : h.handles.get? handle = some buffer)
      (hlength : number.toInt = buffer.bytes.length) :
      Done memory h (size handle) [.i32 number] memory h
  /-- The range holds the bytes of the buffer, and the rest of the memory is as before. -/
  | read {handle pointer : Int32} {a : Nat} {buffer memory'}
      (hthere : h.handles.get? handle = some buffer) (hstart : pointer.toInt = a)
      (hwritten : memory.Rewritten memory' a buffer.bytes) :
      Done memory h (read handle pointer) [] memory' h
  /-- The handle is not live any more, and no other one is concerned. -/
  | discard {handle : Int32} {after}
      (hdropped : after.handles.get? = Function.update h.handles.get? handle none)
      (hrest : { h with handles := after.handles }.LoggedAtMost after) :
      Done memory h (discard handle) [] memory after

variable {memory memory' : Memory} {t : HandleTable} {h after : HostState} {r : Transfer}
  {e : Failure}

/-- A call is granted, or there is a reason why not. -/
theorem refused_or_granted (memory : Memory) (t : HandleTable) (r : Transfer) :
    (∃ e, Refused memory t r e) ∨ Granted memory t r := by
  -- the questions in the order in which each function asks them
  cases r with
  | register pointer length =>
    rcases natural_or_negative pointer with ⟨a, hstart⟩ | hnegative
    · rcases natural_or_negative length with ⟨n, hnumber⟩ | hnegative
      · by_cases hinside : a + n ≤ memory.size
        · by_cases hroom : live t < HandleTable.capacity
          · exact .inr (.register (by omega) (by omega) (by omega) hroom)
          · exact .inl ⟨_, .full hstart hnumber hinside (Nat.le_of_not_lt hroom)⟩
        · exact .inl ⟨_, .range hstart hnumber (Nat.lt_of_not_le hinside)⟩
      · exact .inl ⟨_, .length (by omega) hnegative⟩
    · exact .inl ⟨_, .pointer hnegative⟩
  | size handle =>
    cases hthere : t.get? handle with
    | none => exact .inl ⟨_, .unmeasured hthere⟩
    | some buffer =>
      by_cases hsmall : buffer.bytes.length < 2 ^ 31
      · exact .inr (.size hthere hsmall)
      · exact .inl ⟨_, .large hthere (Nat.le_of_not_lt hsmall)⟩
  | read handle pointer =>
    cases hthere : t.get? handle with
    | none => exact .inl ⟨_, .unread hthere⟩
    | some buffer =>
      rcases natural_or_negative pointer with ⟨a, hstart⟩ | hnegative
      · by_cases hinside : a + buffer.bytes.length ≤ memory.size
        · exact .inr (.read hthere (by omega) (by omega))
        · exact .inl ⟨_, .targetRange hthere hstart (Nat.lt_of_not_le hinside)⟩
      · exact .inl ⟨_, .target hthere hnegative⟩
  | discard handle => exact .inr .discard

/-! ## The functions, called with their arguments -/

variable {handle pointer length : Int32} {buffer : Buffer} {bytes : List UInt8}

/-- A block that is not in the memory is not registered. -/
theorem run_register_of_failed (hfailed : memory.guestRead pointer length = .error e) :
    HostAction.registerBuffer.run memory [.i32 pointer, .i32 length] h =
      (.failed e, memory, h) := by
  simp only [HostAction.run, Buffers.register, i32Arg, List.getElem?_cons_zero,
    List.getElem?_cons_succ, bind, Except.bind, hfailed]

/-- Nor is one for which the table has no room. -/
theorem run_register_of_full (hread : memory.guestRead pointer length = .ok bytes)
    (hfull : h.handles.insert ⟨bytes, none⟩ = .error e) :
    HostAction.registerBuffer.run memory [.i32 pointer, .i32 length] h =
      (.failed e, memory, h) := by
  simp only [HostAction.run, Buffers.register, i32Arg, List.getElem?_cons_zero,
    List.getElem?_cons_succ, bind, Except.bind, hread, hfull]

/-- Otherwise its bytes are stored, and the guest gets their handle. -/
theorem run_register_of_stored (hread : memory.guestRead pointer length = .ok bytes)
    (hstored : h.handles.insert ⟨bytes, none⟩ = .ok (handle, t)) :
    HostAction.registerBuffer.run memory [.i32 pointer, .i32 length] h =
      (.done (.ok [.i32 handle]), memory, ({ h with handles := t } : HostState).log
        ⟨.trace, .interop, "Guest registered buffer", [("slot", toString h.slot),
          ("handle", toString handle), ("len", toString length)]⟩) := by
  simp only [HostAction.run, Buffers.register, i32Arg, List.getElem?_cons_zero,
    List.getElem?_cons_succ, bind, Except.bind, hread, hstored]
  rfl

/-- A handle that leads nowhere has no size. -/
theorem run_size_of_dead (hdead : h.handles.get? handle = none) :
    HostAction.bufferSize.run memory [.i32 handle] h =
      (.failed (Cause.staleHandle handle), memory, h) := by
  simp only [HostAction.run, Buffers.size, i32Arg, List.getElem?_cons_zero, bind, Except.bind,
    HandleTable.resolve_of_dead hdead]
  rfl

/-- A live handle has the size of its buffer, refused if no signed number holds it. -/
theorem run_size_of_live (hthere : h.handles.get? handle = some buffer) :
    HostAction.bufferSize.run memory [.i32 handle] h =
      (.done (if buffer.bytes.length < 2 ^ 31 then .ok [.i32 (Int32.ofNat buffer.bytes.length)]
        else refuse (.badArgument "handle" "buffer too large")), memory, h) := by
  simp only [HostAction.run, Buffers.size, i32Arg, List.getElem?_cons_zero, bind, Except.bind,
    HandleTable.resolve_of_live hthere]
  rfl

/-- A handle that leads nowhere is not read. -/
theorem run_read_of_dead (hdead : h.handles.get? handle = none) :
    HostAction.readBuffer.run memory [.i32 handle, .i32 pointer] h =
      (.failed (Cause.staleHandle handle), memory, h) := by
  simp only [HostAction.run, Buffers.copyOut, i32Arg, List.getElem?_cons_zero,
    List.getElem?_cons_succ, bind, Except.bind, HandleTable.resolve_of_dead hdead]
  rfl

/-- The handle is looked up before the pointer is looked at. -/
theorem run_read_of_live (hthere : h.handles.get? handle = some buffer) :
    HostAction.readBuffer.run memory [.i32 handle, .i32 pointer] h =
      match memory.guestWrite pointer buffer.bytes with
      | .ok memory' => (.done (.ok []), memory', h)
      | .error e => (.failed e, memory, h) := by
  cases hwritten : memory.guestWrite pointer buffer.bytes <;>
    simp only [HostAction.run, Buffers.copyOut, i32Arg, List.getElem?_cons_zero,
      List.getElem?_cons_succ, bind, Except.bind, HandleTable.resolve_of_live hthere, hwritten]

theorem eq_function {f : HostFunction}
    (hdefined : ("interop", r.name, f) ∈ Capability.interop.functions) : f = r.function := by
  cases r <;>
    simpa [Capability.functions, Capability.builtIns, Capability.group, Transfer.name, function]
      using hdefined

/-- The arguments have the types that the function's type asks for. -/
theorem call_eq (r : Transfer) (name : String) (memory : Memory) (h : HostState) :
    r.function.call name r.arguments memory h = r.function.action.run memory r.arguments h := by
  cases r <;> rfl

/-! ## Room for one more buffer -/

/-- A table with room stores any buffer. -/
theorem insert_of_live_lt (hformed : t.WellFormed) (hroom : live t < HandleTable.capacity)
    (buffer : Buffer) : ∃ handle t', t.insert buffer = .ok (handle, t') :=
  (HandleTable.insert_iff_room hformed buffer).mpr (HandleTable.size_eq_ncard hformed ▸ hroom)

/-- A full table stores none. -/
theorem insert_of_le_live (hformed : t.WellFormed) (hfull : HandleTable.capacity ≤ live t)
    (buffer : Buffer) : t.insert buffer = .error HandleTable.overflow := by
  rcases HandleTable.insert_cases_overflow t buffer with hstored | hrefused
  · have hroom : t.size < HandleTable.capacity :=
      (HandleTable.insert_iff_room hformed buffer).mp hstored
    rw [HandleTable.size_eq_ncard hformed] at hroom
    exact absurd hroom (Nat.not_lt_of_le hfull)
  · exact hrefused

/-! ## The outcomes of a call -/

/-- A call that is refused does nothing. -/
theorem run_of_refused (hformed : h.handles.WellFormed) (hrefused : Refused memory h.handles r e) :
    r.function.action.run memory r.arguments h = (.failed e, memory, h) := by
  -- One case for each way of being refused, in the order in which the functions check.
  cases hrefused with
  | pointer hnegative => exact run_register_of_failed (Memory.guestRead_of_negative hnegative _)
  | length hnatural hnegative =>
    obtain ⟨a, hstart⟩ := Int.eq_ofNat_of_zero_le hnatural
    exact run_register_of_failed (Memory.guestRead_of_negative_length hstart hnegative)
  | range hstart hnumber hbeyond =>
    refine run_register_of_failed ?_
    rw [Memory.guestRead_of_natural hstart hnumber, Memory.read_of_beyond hbeyond]
    rfl
  | full hstart hnumber hinside hfull =>
    have hread := Memory.guestRead_of_natural (m := memory) hstart hnumber
    rw [Memory.read_of_inside hinside] at hread
    exact run_register_of_full hread (insert_of_le_live hformed hfull _)
  | unmeasured hdead => exact run_size_of_dead hdead
  | large hthere hlarge =>
    show HostAction.bufferSize.run _ _ _ = _
    rw [arguments, run_size_of_live hthere, if_neg (Nat.not_lt_of_le hlarge)]
    rfl
  | unread hdead => exact run_read_of_dead hdead
  | target hthere hnegative =>
    show HostAction.readBuffer.run _ _ _ = _
    rw [arguments, run_read_of_live hthere, Memory.guestWrite_of_negative hnegative]
    rfl
  | targetRange hthere hstart hbeyond =>
    show HostAction.readBuffer.run _ _ _ = _
    rw [arguments, run_read_of_live hthere, Memory.guestWrite_of_natural hstart,
      Memory.write_of_beyond hbeyond]
    rfl

/-- A call that is granted is carried out, and the table that it leaves came about as tables do. -/
theorem run_of_granted (hreachable : h.handles.Reachable) (hgranted : Granted memory h.handles r) :
    ∃ values memory' after,
      r.function.action.run memory r.arguments h = (.done (.ok values), memory', after) ∧
        Done memory h r values memory' after ∧ after.handles.Reachable := by
  have hformed := hreachable.wellFormed
  cases hgranted with
  | @register pointer length hpointer_natural hlength_natural hinside hroom =>
    -- Signed numbers that are not negative are addresses and lengths of memory.
    obtain ⟨a, hstart⟩ := Int.eq_ofNat_of_zero_le hpointer_natural
    obtain ⟨n, hnumber⟩ := Int.eq_ofNat_of_zero_le hlength_natural
    have hfits : a + n ≤ memory.size := by omega
    have hread : memory.guestRead pointer length = .ok (memory.slice a n) := by
      rw [Memory.guestRead_of_natural hstart hnumber, Memory.read_of_inside hfits]
    obtain ⟨handle, t, hstored⟩ := insert_of_live_lt hformed hroom ⟨memory.slice a n, none⟩
    obtain ⟨hfresh, hleads⟩ := HandleTable.insert_get? hformed hstored
    refine ⟨_, _, _, run_register_of_stored hread hstored, .register hstart hnumber hfresh ?_
      (.inr ⟨_, rfl⟩), hreachable.insert hstored⟩
    funext other
    rw [Function.update_apply]
    exact hleads other
  | size hthere hsmall =>
    refine ⟨_, _, _, ?_, .size hthere (Int32.toInt_ofNat_of_lt hsmall), hreachable⟩
    show HostAction.bufferSize.run _ _ _ = _
    rw [arguments, run_size_of_live hthere, if_pos hsmall]
  | @read handle pointer buffer hthere hnatural hinside =>
    obtain ⟨a, hstart⟩ := Int.eq_ofNat_of_zero_le hnatural
    refine ⟨_, _, _, ?_, .read hthere hstart (Memory.rewritten_setAll _ _ _), hreachable⟩
    show HostAction.readBuffer.run _ _ _ = _
    rw [arguments, run_read_of_live hthere, Memory.guestWrite_of_natural hstart,
      Memory.write_of_fits (by omega)]
  | @discard handle =>
    refine ⟨_, _, _, rfl, .discard ?_ (.inl rfl), hreachable.discard handle⟩
    funext other
    rw [Function.update_apply]
    exact HandleTable.discard_get? hformed handle other

/-- How a call ends. -/
structure Settled (r : Transfer) (memory : Memory) (h : HostState) (result : Outcome (List Value))
    (memory' : Memory) (after : HostState) : Prop where
  succeeds : (∃ values, result = .ok values) ↔ Granted memory h.handles r
  done : ∀ values, result = .ok values → Done memory h r values memory' after
  fails : ∀ e, result = .error e ↔ Refused memory h.handles r e
  /-- What fails has changed neither the memory nor the host. -/
  kept : ∀ e, result = .error e → memory' = memory ∧ after = h
  /-- The next call finds a table that came about as tables do. -/
  reachable : after.handles.Reachable

/-- Each of the four functions answers, and its answer is settled by the table and the memory. -/
theorem run_settled (hreachable : h.handles.Reachable) (r : Transfer) (memory : Memory) :
    ∃ result memory' after,
      r.function.action.run memory r.arguments h = (.done result, memory', after) ∧
        r.Settled memory h result memory' after := by
  have hformed := hreachable.wellFormed
  rcases refused_or_granted memory h.handles r with ⟨e, hrefused⟩ | hgranted
  · have hhappens := run_of_refused hformed hrefused
    refine ⟨.error e, memory, h, hhappens, ⟨?_, fun hgranted => ?_⟩, nofun, fun other => ⟨?_, ?_⟩,
      fun _ _ => ⟨rfl, rfl⟩, hreachable⟩
    · rintro ⟨values, hsuccess⟩
      cases hsuccess
    · -- a call has one outcome, so that it is not granted as well
      obtain ⟨values, memory', after, hcarried, -⟩ := run_of_granted hreachable hgranted
      cases hhappens.symm.trans hcarried
    · rintro ⟨⟩
      exact hrefused
    · intro halso
      cases hhappens.symm.trans (run_of_refused hformed halso)
      rfl
  · obtain ⟨values, memory', after, hcarried, hdone, hagain⟩ := run_of_granted hreachable hgranted
    refine ⟨.ok values, memory', after, hcarried, ⟨fun _ => hgranted, fun _ => ⟨values, rfl⟩⟩, ?_,
      fun other => ⟨nofun, fun hrefused => ?_⟩, nofun, hagain⟩
    · rintro _ ⟨⟩
      exact hdone
    · cases hcarried.symm.trans (run_of_refused hformed hrefused)

/-- Let a guest call the functions on buffers with any numbers, any memory and any table of handles.
A range is registered just when neither number is negative, the range lies in the memory as it is
at the call and fewer handles are live than may be; its bytes, and no others, are then under a fresh
handle. A buffer is measured just when its handle is live and its length is a number for the guest,
and it is read just when its handle is live, the pointer is not negative and the bytes fit; the
range then holds them, and the memory is as before everywhere else. A handle can always be
discarded, and no other is lost by it. Whatever fails, for the first reason that there is
(`Transfer.Refused`), has changed neither the memory nor the host. The table that is left came about
as tables do, so that all this holds of the next call too. -/
theorem transfer_settled {f : HostFunction}
    (hdefined : ("interop", r.name, f) ∈ Capability.interop.functions)
    (hreachable : h.handles.Reachable) (name : String) (memory : Memory) :
    ∃ result memory' after, f.call name r.arguments memory h = (.done result, memory', after) ∧
      r.Settled memory h result memory' after := by
  obtain rfl := eq_function hdefined
  rw [call_eq]
  exact run_settled hreachable r memory

/-- A host without buffers. -/
def bare : HostState where
  slot := 0
  handles := .empty
  cancelled := false
  services := ⟨[], [], default⟩
  journal := .empty

/-- The last two bytes of a page are registered. -/
theorem transfer_settled_last : ∃ handle after, HostFunction.call
      ⟨⟨[.i32, .i32], [.i32]⟩, .registerBuffer⟩ "interop.registerBuffer" [.i32 65534, .i32 2]
      ((Memory.ofPages 1).set 65534 97) bare =
        (.done (.ok [.i32 handle]), (Memory.ofPages 1).set 65534 97, after) ∧
    after.handles.get? handle = some ⟨[97, 0], none⟩ ∧ after.handles.Reachable := by
  have hreachable : bare.handles.Reachable := .empty
  obtain ⟨result, memory', after, hcalled, hsettled⟩ := transfer_settled
    (r := .register 65534 2) (.head _) hreachable "interop.registerBuffer"
    ((Memory.ofPages 1).set 65534 97)
  have hroom : live bare.handles < HandleTable.capacity := by
    rw [live, ← HandleTable.size_eq_ncard hreachable.wellFormed]
    decide
  obtain ⟨values, rfl⟩ := hsettled.succeeds.mpr (.register (by decide) (by decide) (by decide)
    hroom)
  have hdone := hsettled.done values rfl
  cases hdone with
  | @register _ _ a n handle _ hstart hnumber hfresh hstored hrest =>
    obtain rfl : a = 65534 := Int.ofNat.inj hstart.symm
    obtain rfl : n = 2 := Int.ofNat.inj hnumber.symm
    refine ⟨handle, after, hcalled, ?_, hsettled.reachable⟩
    rw [hstored, Function.update_self]
    decide

end Transfer
end Buffers
end SandboxPool
