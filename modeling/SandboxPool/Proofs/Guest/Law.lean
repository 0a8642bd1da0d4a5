import SandboxPool.Guest.Module

/-!
# What a guest can do to the host

A guest reaches the host through host functions only; beside them it leaves notes and log entries.
So a relation between host states that every call of a host function respects, and that looks at
nothing in the journal but the locks that were sent, holds between the beginning and the end of
any slice of a guest. `HostLaw` names such a relation; the theorems about slices of scripts and of
WebAssembly follow from it.

Where no host function is used at all, nothing but the journal changes: `GuestModule.Unaided` says
so of what runs while an instance is made.
-/

namespace SandboxPool

/-! ## Operations of scripts as functions of the state -/

namespace GuestM

/-- What an operation on the heap alone means to the guest. -/
def afterHeap {α : Type} (s : GuestState) : Outcome (α × Heap) → Except Stop α × GuestState
  | .ok (a, heap) => (.ok a, { s with heap })
  | .error e => (.error (.failure e), s)

theorem onHeap_eq {α : Type} (f : Heap → Outcome (α × Heap)) (s : GuestState) :
    onHeap f s = afterHeap s (f s.heap) := by
  have hafter (r : Outcome (α × Heap)) : (do
      let out ← ofOutcome r
      set { s with heap := out.2 }
      return out.1 : GuestM α) s = afterHeap s r := by
    cases r <;> rfl
  exact hafter (f s.heap)

/-- What a host function's reply means to the guest that called it. -/
def ofReply : HostReply → Except Stop (List Value)
  | .done (.ok vs) => .ok vs
  | .done (.error e) => .error (.failure e)
  | .panicked message => .error (.panic message)
  | .waiting gate => .error (.waiting gate)

variable {imports : Imports} {group name : String} {args : List Value} {s : GuestState}

/-- A function that is not in the namespace stops the guest. -/
theorem call_missing (hmissing : imports.get? group name = none) :
    call imports group name args s =
      (.error (.failure (Cause.exportMissing (group ++ "." ++ name))), s) := by
  unfold call
  rw [hmissing]
  rfl

/-- One that is there answers with the memory and the host that it leaves. -/
theorem call_found {f : HostFunction} (hfound : imports.get? group name = some f)
    {reply : HostReply} {memory : Memory} {host : HostState}
    (hcalled : f.call (group ++ "." ++ name) args s.heap.memory s.host = (reply, memory, host)) :
    call imports group name args s = (ofReply reply, ⟨{ s.heap with memory }, host⟩) := by
  have hread {α : Type} (next : GuestState → GuestM α) :
      (get >>= next : GuestM α) s = next s s := rfl
  have hwritten {α : Type} (s' : GuestState) (next : Unit → GuestM α) :
      (set s' >>= next : GuestM α) s = next () s' := rfl
  -- the call reads the state, writes it once, and then answers
  unfold call
  rw [hfound]
  dsimp only
  rw [hread, hcalled]
  dsimp only
  rw [hwritten]
  cases reply with
  | done r => cases r <;> rfl
  | panicked message => rfl
  | waiting gate => rfl

end GuestM

/-! ## Scripts as functions of the state -/

namespace ScriptRun

variable {r : ScriptRun} {a : Action} {rest : List Instr} {result : Except Failure Binding}
  {s : GuestState}

/-- What follows the end of an instruction. -/
def resume (gates : List String) (fuel : Nat) :
    Except Failure ScriptRun × GuestState → Progress ScriptRun × GuestState
  | (.ok r, s) => r.advanceFor gates fuel s
  | (.error e, s) => (.finished (.error e), s)

/-- The end of a quiet instruction leaves no trace. -/
theorem settle_quiet (hquiet : a.quiet = true) : (r.settle a rest result s).2 = s := by
  unfold settle
  rw [hquiet]
  cases result with
  | ok b => rfl
  | error e =>
    dsimp only
    split <;> rfl

/-- A script that goes on by a quiet call of a host function leaves the host as the call does. -/
theorem advanceFor_call {group name : String} {operands : List Operand} {args : List Value}
    (gates : List String) (hcode : r.code = .perform a :: rest)
    (hoperation : a.operation = .call group name operands) (hquiet : a.quiet = true)
    (hgiven : (operands.mapM r.operand : GuestM (List Value)) s = (.ok args, s)) :
    (r.advanceFor gates 1 s).2.host = (GuestM.call r.imports group name args s).2.host := by
  -- The operands are known, so the action is the call and nothing else.
  have hperformed : r.perform a.operation s =
      ((GuestM.call r.imports group name args s).1.map .values,
        (GuestM.call r.imports group name args s).2) := by
    let next (args : List Value) : GuestM Binding :=
      GuestM.call r.imports group name args >>= fun vs => Pure.pure (.values vs)
    have hunfolded : r.perform a.operation s = ExceptT.bindCont next
        ((operands.mapM r.operand : GuestM (List Value)) s).1
        ((operands.mapM r.operand : GuestM (List Value)) s).2 := by
      rw [hoperation]
      rfl
    rw [hunfolded, hgiven]
    show ExceptT.bindCont (fun vs => (Pure.pure (.values vs) : GuestM Binding))
      (GuestM.call r.imports group name args s).1 (GuestM.call r.imports group name args s).2 = _
    rcases GuestM.call r.imports group name args s with ⟨e | vs, s'⟩ <;> rfl
  -- A quiet action records nothing and the budget is spent: the run stops where the call left it.
  have hfinished (result : Except Failure Binding) (s' : GuestState) :
      (resume gates 0 (r.settle a rest result s')).2.host = s'.host := by
    have hsettled : (r.settle a rest result s').2 = s' := settle_quiet hquiet
    rcases hfound : r.settle a rest result s' with ⟨e | r', s''⟩ <;>
      · rw [hfound] at hsettled
        exact congrArg GuestState.host hsettled
  unfold advanceFor
  simp only [hcode, hperformed]
  rw [hoperation]
  rcases GuestM.call r.imports group name args s with ⟨(e | message | gate) | vs, s'⟩
  · exact hfinished (.error e) s'
  · rfl
  · rfl
  · exact hfinished (.ok (.values vs)) s'

end ScriptRun

/-- A script works on the heap of its instance unless it has one of its own. -/
theorem GuestRun.advanceFor_script (gates : List String) (fuel : Nat) (run : ScriptRun)
    (own : Option Heap) (module : ScriptModule) (heap : Option Heap) (imports : Imports)
    (h : HostState) :
    ((GuestRun.script run own).advanceFor gates fuel (.script module heap imports) h).2.2 =
      (run.advanceFor gates fuel ⟨(own <|> heap).getD (.ofPages 0), h⟩).2.host :=
  rfl

/-- The locks that were sent to clients which keep none. -/
def Journal.sent (j : Journal) : List Lock :=
  j.notes.filterMap fun
    | .lockSent lock => some lock
    | _ => none

/-- Growing a memory is logged at most. -/
theorem Wasm.Machine.growMemory_sent (i : Wasm.Instance) (pages : Nat) (journal : Journal) :
    (growMemory i pages journal).2.2.sent = journal.sent := by
  unfold growMemory
  cases i.memory with
  | none => rfl
  | some memory =>
    dsimp only
    split
    · rfl
    · split
      · rfl
      · split <;> rfl

/-- A relation between host states that host functions respect. -/
structure HostLaw (R : HostState → HostState → Prop) : Prop where
  refl : ∀ h, R h h
  trans : ∀ {a b c}, R a b → R b c → R a c
  function : ∀ (f : HostFunction) (name : String) (args : List Value) (memory : Memory)
    (h : HostState), R h (f.call name args memory h).2.2
  journal : ∀ {h : HostState} {journal : Journal}, journal.sent = h.journal.sent →
    R h { h with journal }

/-- What a guest does keeps a relation. -/
def GuestM.Keeps {α : Type} (R : HostState → HostState → Prop) (act : GuestM α) : Prop :=
  ∀ s, R s.host (act s).2.host

/-- A script works on the host around it, whichever heap it has. -/
theorem GuestRun.onHeap_keeps {R : HostState → HostState → Prop}
    {act : ScriptRun → GuestState → Progress ScriptRun × GuestState}
    (hkept : ∀ r s, R s.host (act r s).2.host) (run : ScriptRun) (own : Option Heap)
    (module : ScriptModule) (heap : Option Heap) (imports : Imports) (h : HostState) :
    R h (GuestRun.onHeap act run own module heap imports h).2.2 :=
  hkept run ⟨(own <|> heap).getD (.ofPages 0), h⟩

namespace HostLaw

variable {R : HostState → HostState → Prop} (hlaw : HostLaw R)
include hlaw

/-! ## Single operations -/

/-- A guest that only hands something on keeps the law, as every law is reflexive. -/
theorem pure {α : Type} (a : α) : (Pure.pure a : GuestM α).Keeps R := fun s => hlaw.refl s.host

theorem throw {α : Type} (e : Stop) : (throwThe Stop e : GuestM α).Keeps R :=
  fun s => hlaw.refl s.host

/-- Two things that keep the law keep it one after the other. -/
theorem bind {α β : Type} {act : GuestM α} {next : α → GuestM β} (h : act.Keeps R)
    (h' : ∀ a, (next a).Keeps R) : (act >>= next).Keeps R := by
  intro s
  have hboth : (act >>= next) s = ExceptT.bindCont next (act s).1 (act s).2 := rfl
  have hfirst := h s
  rw [hboth]
  -- what the first part did, and then what the rest makes of it
  generalize act s = out at hfirst ⊢
  rcases out with ⟨e | a, s'⟩
  · exact hfirst
  · exact hlaw.trans hfirst (h' a s')

/-- What reads the state only. -/
theorem get : (MonadState.get : GuestM GuestState).Keeps R := fun s => hlaw.refl s.host

/-- Whether something succeeds or fails makes no difference to the host. -/
theorem ofOutcome {α : Type} (r : Outcome α) : (GuestM.ofOutcome r).Keeps R := by
  cases r with
  | ok a => exact hlaw.pure a
  | error e => exact hlaw.throw _

theorem refuse {α : Type} (c : Cause) : (GuestM.refuse c : GuestM α).Keeps R := hlaw.throw _

/-- What changes the heap only. -/
theorem onHeap {α : Type} (f : Heap → Outcome (α × Heap)) : (GuestM.onHeap f).Keeps R := by
  intro s
  rw [GuestM.onHeap_eq]
  cases f s.heap <;> exact hlaw.refl s.host

theorem pointer (address : Nat) : (GuestM.pointer address).Keeps R := by
  unfold GuestM.pointer
  split
  · exact hlaw.pure _
  · exact hlaw.refuse _

/-- Guests do as they please with their own memory. -/
theorem alloc (length : Nat) : (GuestM.alloc length).Keeps R :=
  hlaw.bind (hlaw.onHeap _) fun _ => hlaw.pointer _

theorem store (data : List UInt8) : (GuestM.store data).Keeps R :=
  hlaw.bind (hlaw.onHeap _) fun _ => hlaw.pointer _

theorem load (p : Int32) (length : Nat) : (GuestM.load p length).Keeps R := by
  have hread : (do GuestM.ofOutcome ((← MonadState.get).heap.read p.toNatClampNeg length) :
      GuestM (List UInt8)).Keeps R := hlaw.bind hlaw.get fun _ => hlaw.ofOutcome _
  unfold GuestM.load
  split
  · exact hlaw.bind (hlaw.refuse _) fun _ => hread
  · exact hread

/-- A string is laid out in the guest's memory, and the host is not asked. -/
theorem storeCounted (s : String) : (GuestM.storeCounted s).Keeps R := by
  unfold GuestM.storeCounted
  dsimp only
  split
  · exact hlaw.bind (hlaw.refuse _) fun _ => hlaw.bind (hlaw.store _) fun _ => hlaw.pure _
  · exact hlaw.bind (hlaw.store _) fun _ => hlaw.pure _

/-- A call of a host function keeps the law if the functions of the namespace do. -/
theorem call (imports : Imports) (group name : String) (args : List Value) :
    (GuestM.call imports group name args).Keeps R := by
  intro s
  cases hfound : imports.get? group name with
  | none =>
    rw [GuestM.call_missing hfound]
    exact hlaw.refl s.host
  | some f =>
    have hkept := hlaw.function f (group ++ "." ++ name) args s.heap.memory s.host
    rcases hcalled : f.call (group ++ "." ++ name) args s.heap.memory s.host with
      ⟨reply, memory, host⟩
    rw [hcalled] at hkept
    rw [GuestM.call_found hfound hcalled]
    exact hkept

theorem callI32 (imports : Imports) (group name : String) (args : List Value) :
    (GuestM.callI32 imports group name args).Keeps R := by
  refine hlaw.bind (hlaw.call imports group name args) fun vs => ?_
  split
  · exact hlaw.pure _
  · exact hlaw.refuse _

theorem sendMessage (imports : Imports) (data : List UInt8) :
    (GuestM.sendMessage imports data).Keeps R := by
  refine hlaw.bind (hlaw.store data) fun p => ?_
  split
  · exact hlaw.bind (hlaw.refuse _) fun _ => hlaw.callI32 _ _ _ _
  · exact hlaw.callI32 _ _ _ _

theorem receiveMessage (imports : Imports) (handle : Int32) :
    (GuestM.receiveMessage imports handle).Keeps R := by
  refine hlaw.bind (hlaw.callI32 _ _ _ _) fun size => ?_
  have hrest : (do
      let p ← GuestM.alloc size.toNatClampNeg
      let _ ← GuestM.call imports "interop" "readBuffer" [.i32 handle, .i32 p]
      GuestM.load p size.toNatClampNeg : GuestM (List UInt8)).Keeps R :=
    hlaw.bind (hlaw.alloc _) fun p => hlaw.bind (hlaw.call _ _ _ _) fun _ => hlaw.load _ _
  split
  · exact hlaw.bind (hlaw.refuse _) fun _ => hrest
  · exact hrest

/-- So do several things of one kind, one after the other. -/
theorem mapM {α β : Type} {f : α → GuestM β} (h : ∀ a, (f a).Keeps R) (l : List α) :
    (l.mapM f).Keeps R := by
  induction l with
  | nil => exact hlaw.pure []
  | cons a l ih =>
    rw [List.mapM_cons]
    exact hlaw.bind (h a) fun b => hlaw.bind ih fun bs => hlaw.pure _

/-! ## Scripts -/

/-- Looking up an operand calls nobody. -/
theorem operand (r : ScriptRun) (o : Operand) : (r.operand o).Keeps R := by
  unfold ScriptRun.operand
  split
  · exact hlaw.pure _
  · split
    · exact hlaw.pure _
    · exact hlaw.refuse _
  · split
    · exact hlaw.pure _
    · exact hlaw.pure _
    · exact hlaw.refuse _

theorem number (r : ScriptRun) (o : Operand) : (r.number o).Keeps R :=
  hlaw.bind (hlaw.operand r o) fun _ => hlaw.pure _

theorem payload (r : ScriptRun) (parts : List Part) : (r.payload parts).Keeps R := by
  refine hlaw.bind (hlaw.mapM (fun part => ?_) parts) fun _ => hlaw.pure _
  split
  · exact hlaw.pure _
  · split
    · exact hlaw.pure _
    · exact hlaw.refuse _

/-- Every operation of a script keeps a law, for it reaches the host by host functions alone. -/
theorem perform (r : ScriptRun) (op : Operation) : (r.perform op).Keeps R := by
  unfold ScriptRun.perform
  cases op with
  | alloc length => exact hlaw.bind (hlaw.alloc length) fun _ => hlaw.pure _
  | writeBytes parts =>
    exact hlaw.bind (hlaw.payload r parts) fun _ => hlaw.bind (hlaw.store _) fun _ => hlaw.pure _
  | countedString s => exact hlaw.bind (hlaw.storeCounted s) fun _ => hlaw.pure _
  | terminatedString s => exact hlaw.bind (hlaw.store _) fun _ => hlaw.pure _
  | readBytes p length =>
    exact hlaw.bind (hlaw.number r p) fun _ => hlaw.bind (hlaw.load _ _) fun _ => hlaw.pure _
  | memorySize => exact hlaw.bind (hlaw.bind hlaw.get fun _ => hlaw.pure _) fun _ => hlaw.pure _
  | grow pages => exact hlaw.bind (hlaw.onHeap _) fun _ => hlaw.pure _
  | poke p parts =>
    exact hlaw.bind (hlaw.number r p) fun _ => hlaw.bind (hlaw.payload r parts) fun _ =>
      hlaw.bind (hlaw.onHeap _) fun _ => hlaw.pure _
  | call group name args =>
    exact hlaw.bind (hlaw.mapM (hlaw.operand r) args) fun _ =>
      hlaw.bind (hlaw.call _ _ _ _) fun _ => hlaw.pure _
  | callI32 group name args =>
    exact hlaw.bind (hlaw.mapM (hlaw.operand r) args) fun _ =>
      hlaw.bind (hlaw.callI32 _ _ _ _) fun _ => hlaw.pure _
  | sendMessage parts =>
    exact hlaw.bind (hlaw.payload r parts) fun _ =>
      hlaw.bind (hlaw.sendMessage _ _) fun _ => hlaw.pure _
  | receiveMessage handle =>
    exact hlaw.bind (hlaw.number r handle) fun _ =>
      hlaw.bind (hlaw.receiveMessage _ _) fun _ => hlaw.pure _
  | gate _ => exact hlaw.pure _
  | fail e => exact hlaw.throw _
  | panic message => exact hlaw.throw _

/-- Taking up the result of an operation keeps a law. -/
theorem settle (r : ScriptRun) (a : Action) (rest : List Instr) (result : Except Failure Binding)
    (s : GuestState) : R s.host (r.settle a rest result s).2.host := by
  have hnoted : R s.host
      (if a.quiet then s else { s with host := s.host.note (ScriptRun.noteOf a result) }).host := by
    split
    · exact hlaw.refl s.host
    · refine hlaw.journal (h := s.host) ?_
      rcases result with e | vs | data <;> rfl
  unfold ScriptRun.settle
  dsimp only
  split
  · exact hnoted
  · split <;> exact hnoted

/-- A script keeps a law however far it gets. -/
theorem script (gates : List String) (fuel : Nat) (r : ScriptRun) (s : GuestState) :
    R s.host (r.advanceFor gates fuel s).2.host := by
  -- every instruction keeps the law, and so does what follows on less fuel
  induction fuel generalizing r s with
  | zero => exact hlaw.refl s.host
  | succ fuel ih =>
    unfold ScriptRun.advanceFor
    split
    · exact hlaw.refl s.host
    · next values rest hcode =>
      have hkept := hlaw.mapM (hlaw.operand r) values s
      split <;> next hfound => rw [hfound] at hkept; exact hkept
    · exact ih _ _
    · exact ih _ _
    · next a rest hcode =>
      have hfinish (result : Except Failure Binding) (s' : GuestState) (hkept : R s.host s'.host) :
          R s.host (ScriptRun.resume gates fuel (r.settle a rest result s')).2.host := by
        have hsettled := hlaw.trans hkept (hlaw.settle r a rest result s')
        rcases hfound : r.settle a rest result s' with ⟨e | r', s''⟩
        · rw [hfound] at hsettled
          exact hsettled
        · rw [hfound] at hsettled
          exact hlaw.trans hsettled (ih r' s'')
      dsimp only
      split
      · exact hlaw.refl s.host
      · have hkept := hlaw.perform r a.operation s
        split
        · next b s' hfound =>
          rw [hfound] at hkept
          exact hfinish (.ok b) s' hkept
        · next e s' hfound =>
          rw [hfound] at hkept
          exact hfinish (.error e) s' hkept
        · next message s' hfound =>
          rw [hfound] at hkept
          exact hkept
        · next gate s' hfound =>
          rw [hfound] at hkept
          exact hkept

/-- A script that is interrupted keeps a law, though it may go on for a while. -/
theorem scriptInterrupt (gates : List String) (fuel : Nat) (r : ScriptRun) (e : Failure)
    (s : GuestState) : R s.host (r.interruptFor gates fuel e s).2.host := by
  unfold ScriptRun.interruptFor
  split
  · next a rest hcode =>
    have hsettled := hlaw.settle r a rest (.error e) s
    split
    · next r' s' hfound =>
      rw [hfound] at hsettled
      exact hlaw.trans hsettled (hlaw.script gates fuel r' s')
    · next e s' hfound =>
      rw [hfound] at hsettled
      exact hsettled
  · exact hlaw.refl s.host

/-! ## WebAssembly -/

/-- A machine keeps a law however far it gets. -/
theorem machine (function : String) (fuel : Nat) (m : Wasm.Machine) (i : Wasm.Instance)
    (h : HostState) : R h (Wasm.Machine.runFor function fuel m i h).2.2 := by
  -- a machine reaches the host when it grows its memory and when it calls
  induction fuel generalizing m i h with
  | zero => exact hlaw.refl h
  | succ fuel ih =>
    unfold Wasm.Machine.runFor
    split
    · exact ih _ _ _
    · exact hlaw.refl h
    · exact hlaw.refl h
    · exact hlaw.refl h
    · exact hlaw.trans (hlaw.journal (Wasm.Machine.growMemory_sent _ _ _)) (ih _ _ _)
    · next qualified f args m hfound =>
      have hcalled := hlaw.function f qualified args i.hostMemory h
      generalize f.call qualified args i.hostMemory h = out at hcalled ⊢
      rcases out with ⟨reply, memory, h'⟩
      dsimp only at hcalled ⊢
      split
      · exact hcalled
      · exact hcalled
      · exact hcalled
      · split
        · exact hcalled
        · exact hlaw.trans hcalled (ih _ _ _)

/-- So does a guest that runs a machine. -/
theorem runMachine (function : String) (fuel : Nat) (m : Wasm.Machine) (i : Wasm.Instance)
    (h : HostState) : R h (GuestRun.runMachine function fuel m i h).2.2 :=
  hlaw.machine function fuel m i h

/-- Entering a function keeps a law, even if the function is one of the host's. -/
theorem enter (function : String) (fuel index : Nat) (args : List Value) (i : Wasm.Instance)
    (h : HostState) : R h (GuestRun.enter function fuel index args i h).2.2 := by
  unfold GuestRun.enter
  split
  · exact hlaw.refl h
  · next qualified f hfound =>
    split
    · exact hlaw.refl h
    -- The function entered is an import: the host is called directly, with no memory of a guest.
    · have hcalled := hlaw.function f qualified args ⟨0, ∅⟩ h
      generalize f.call qualified args ⟨0, ∅⟩ h = out at hcalled ⊢
      rcases out with ⟨reply, memory, h'⟩
      dsimp only at hcalled ⊢
      split
      · exact hcalled
      · exact hcalled
      · exact hcalled
      · split <;> exact hcalled
  · split
    · exact hlaw.refl h
    · exact hlaw.runMachine _ _ _ _ _

/-! ## Guests of either kind -/

/-- A slice of a guest keeps a law. -/
theorem slice (gates : List String) (fuel : Nat) (run : GuestRun) (g : GuestInstance)
    (h : HostState) : R h (run.advanceFor gates fuel g h).2.2 := by
  unfold GuestRun.advanceFor
  split
  · exact GuestRun.onHeap_keeps (hlaw.script gates fuel) _ _ _ _ _ h
  · exact hlaw.enter _ _ _ _ _ h
  · exact hlaw.runMachine _ _ _ _ h
  · exact hlaw.refl h

/-- The same for an interrupted run of either kind of guest. -/
theorem interrupt (gates : List String) (fuel : Nat) (run : GuestRun) (e : Failure)
    (g : GuestInstance) (h : HostState) : R h (run.interruptFor gates fuel e g h).2.2 := by
  unfold GuestRun.interruptFor
  split
  · exact GuestRun.onHeap_keeps (fun r s => hlaw.scriptInterrupt gates fuel r e s) _ _ _ _ _ h
  · exact hlaw.refl h

end HostLaw

/-! ## Without host functions -/

namespace Wasm.Machine

/-- No host function is called within `fuel` steps. -/
def Unaided : (fuel : Nat) → Machine → Instance → Prop
  | 0, _, _ => True
  | fuel + 1, m, i =>
    match m.step i with
    | .next m i => Unaided fuel m i
    | .grow pages m =>
      let grown := growMemory i pages .empty
      Unaided fuel { m with frame := m.frame.push (.num (.i32 grown.1)) } grown.2.1
    | .host .. => False
    | _ => True

/-- What a memory grows to does not depend on the journal. -/
theorem growMemory_journal (i : Instance) (pages : Nat) (j j' : Journal) :
    (growMemory i pages j).1 = (growMemory i pages j').1 ∧
      (growMemory i pages j).2.1 = (growMemory i pages j').2.1 := by
  unfold growMemory
  cases i.memory with
  | none => exact ⟨rfl, rfl⟩
  | some memory =>
    dsimp only
    split
    · exact ⟨rfl, rfl⟩
    · split
      · exact ⟨rfl, rfl⟩
      · split <;> exact ⟨rfl, rfl⟩

/-- A machine that calls no host function changes nothing of the host but the journal. -/
theorem Unaided.runFor {fuel : Nat} {m : Machine} {i : Instance} (h : m.Unaided fuel i)
    (function : String) (host : HostState) :
    ∃ journal, (Machine.runFor function fuel m i host).2.2 = { host with journal } := by
  -- A guest that is unaided never steps into the host; growing its memory costs a journal entry.
  induction fuel generalizing m i host with
  | zero => exact ⟨host.journal, rfl⟩
  | succ fuel ih =>
    unfold Unaided at h
    unfold Machine.runFor
    cases hmove : m.step i with
    | next m' i' =>
      rw [hmove] at h
      exact ih h host
    -- What the host has said about earlier growth decides nothing about later growth.
    | grow pages m' =>
      rw [hmove] at h
      obtain ⟨hanswer, hinstance⟩ := growMemory_journal i pages .empty host.journal
      dsimp only at h
      rw [hanswer, hinstance] at h
      obtain ⟨journal, hrest⟩ := ih h { host with journal := (growMemory i pages host.journal).2.2 }
      exact ⟨journal, hrest⟩
    | host qualified f args m' =>
      rw [hmove] at h
      exact h.elim
    | _ => exact ⟨host.journal, rfl⟩

end Wasm.Machine

/-- No host function is called in the first slice of a call. -/
def GuestRun.Unaided (index : Nat) (args : List Value) (i : Wasm.Instance) : Prop :=
  match i.functions[index]? with
  | none => True
  | some (.host ..) => False
  | some (.code type locals body) =>
    let frame := Wasm.Machine.frameOf type locals body (args.reverse.map .num)
    Wasm.Machine.Unaided Wasm.Machine.slice ⟨frame, [], 0⟩ i

theorem GuestRun.Unaided.enter {index : Nat} {args : List Value} {i : Wasm.Instance}
    (h : GuestRun.Unaided index args i) (function : String) (host : HostState) :
    ∃ journal, (GuestRun.enter function Wasm.Machine.slice index args i host).2.2 =
      { host with journal } := by
  unfold GuestRun.Unaided at h
  unfold GuestRun.enter
  split
  · exact ⟨host.journal, rfl⟩
  · next qualified f hfound =>
    rw [hfound] at h
    exact h.elim
  · next type locals body hfound =>
    rw [hfound] at h
    split
    · exact ⟨host.journal, rfl⟩
    · exact Wasm.Machine.Unaided.runFor h function host

namespace GuestModule

/-- No host function is used while an instance of a module is made. -/
def Unaided (m : GuestModule) (imports : Imports) (limit : Nat) : Prop :=
  match m with
  | script _ => True
  | wasm w => ∀ {index : Nat} {i : Wasm.Instance} {j j' : Journal}, w.start = some index →
      Wasm.Instance.create w imports limit j = (.ok i, j') → GuestRun.Unaided index [] i

/-- A module that runs nothing when an instance of it is made. -/
def Startless : GuestModule → Prop
  | script _ => True
  | wasm w => w.start = none

/-- A module without a start function calls nobody while it is instantiated. -/
theorem Startless.unaided {m : GuestModule} (h : m.Startless) (imports : Imports) (limit : Nat) :
    m.Unaided imports limit := by
  cases m with
  | script s => trivial
  | wasm w =>
    intro index i j j' hstart hcreated
    rw [show w.start = none from h] at hstart
    cases hstart

/-- Making an instance without host functions changes nothing of the host but the journal. -/
theorem Unaided.instantiate {m : GuestModule} {imports : Imports} {limit : Nat}
    (h : m.Unaided imports limit) (host : HostState) :
    ∃ journal, (m.instantiate imports limit host).2 = { host with journal } := by
  unfold GuestModule.instantiate
  cases m with
  | script s =>
    dsimp only
    split <;> exact ⟨_, rfl⟩
  | wasm w =>
    dsimp only
    rcases hcreated : Wasm.Instance.create w imports limit host.journal with ⟨reason | i, j⟩
    · exact ⟨j, rfl⟩
    -- An instance without a start function runs nothing while it is made.
    · dsimp only
      cases hstart : w.start with
      | none => exact ⟨j, rfl⟩
      | some index =>
        dsimp only
        have hunaided : GuestRun.Unaided index [] i := h hstart hcreated
        obtain ⟨journal, hran⟩ := hunaided.enter "" { host with journal := j }
        rcases hentered : GuestRun.enter "" Wasm.Machine.slice index [] i
          { host with journal := j } with ⟨progress, g, h'⟩
        rw [hentered] at hran
        obtain rfl : h' = { host with journal } := hran
        refine ⟨journal, ?_⟩
        dsimp only
        split <;> rfl

-- A start function that only computes uses no host function.
example (imports : Imports) (limit : Nat) :
    let m : Wasm.Module :=
      { Wasm.Module.empty with
        types := [⟨[], []⟩]
        functions := [0]
        start := some 0
        codes := [⟨[], [.const (.i32 7), .drop]⟩] }
    (GuestModule.wasm m).Unaided imports limit := by
  intro m index i j j' hstart hcreated
  cases hstart
  cases hcreated
  exact trivial

end GuestModule

end SandboxPool
