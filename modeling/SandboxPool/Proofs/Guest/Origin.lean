import SandboxPool.Guest.Module

/-!
# The module that a guest was made of

A guest changes its memory, its tables and its variables, but nobody changes the module that it was
made of (`GuestInstance.origin`). So what a guest exports once it exports for good, and a call of a
function that it exports can always begin (`GuestInstance.start_of_hasFunction`).
-/

namespace SandboxPool
namespace Wasm

/-! ## Instances of WebAssembly -/

theorem Instance.setHostMemory_module (i : Instance) (memory : Memory) :
    (i.setHostMemory memory).module = i.module := by
  unfold setHostMemory
  split <;> rfl

/-- A move goes on with an instance of the same module, if it goes on. -/
def Move.KeepsModule (i : Instance) (move : Move) : Prop :=
  ∀ {m i'}, move = .next m i' → i'.module = i.module

namespace Machine

variable {i i' : Instance}

/-- Writing to the memory leaves the module as it is. -/
theorem storeAt_module {a : Access} {base : Int32} {offset : Nat} {v : Value}
    (hstored : storeAt i a base offset v = .ok i') : i'.module = i.module := by
  unfold storeAt at hstored
  dsimp only at hstored
  split at hstored
  · cases hstored
  · split at hstored
    · obtain rfl := Except.ok.inj hstored
      rfl
    · cases hstored

theorem growTable_module (i : Instance) (table delta : Nat) :
    (growTable i table delta).2.module = i.module := by
  unfold growTable
  dsimp only
  split <;> rfl

/-- So does growing the memory, whatever the journal makes of it. -/
theorem growMemory_module (i : Instance) (pages : Nat) (j : Journal) :
    (growMemory i pages j).2.1.module = i.module := by
  unfold growMemory
  cases i.memory with
  | none => rfl
  | some memory =>
    dsimp only
    split
    · rfl
    · split
      · rfl
      · split <;> rfl

theorem leave_module (m : Machine) (i : Instance) : (m.leave i).KeepsModule i := by
  intro m' i' hnext
  unfold leave at hnext
  dsimp only at hnext
  split at hnext
  · cases hnext
  · obtain ⟨-, rfl⟩ := Move.next.inj hnext
    rfl

/-- A branch keeps the module. -/
theorem branch_module (m : Machine) (i : Instance) (label : Nat) :
    (m.branch i label).KeepsModule i := by
  intro m' i' hnext
  unfold branch at hnext
  split at hnext
  · obtain ⟨-, rfl⟩ := Move.next.inj hnext
    rfl
  · exact leave_module m i hnext

/-- So does a call, whether of a function of the module or of an import. -/
theorem callFunction_module (m : Machine) (i : Instance) (function : Nat) :
    (m.callFunction i function).KeepsModule i := by
  intro m' i' hnext
  unfold callFunction at hnext
  dsimp only at hnext
  split at hnext
  · cases hnext
  · cases hnext
  · split at hnext
    · cases hnext
    · obtain ⟨-, rfl⟩ := Move.next.inj hnext
      rfl

/-- One instruction changes the module of no instance. -/
theorem execute_module (m : Machine) (i : Instance) (op : Instr) :
    (m.execute i op).KeepsModule i := by
  intro m' i' hnext
  have hsame {m₁ : Machine} (hnext : Move.next m₁ i = .next m' i') : i'.module = i.module := by
    obtain ⟨-, rfl⟩ := Move.next.inj hnext
    rfl
  unfold execute at hnext
  cases op with
  | unreachable => cases hnext
  | nop | block | loop | tableSize | memorySize => exact hsame hnext
  | br label => exact branch_module _ _ _ hnext
  | ret => exact leave_module _ _ hnext
  | call function => exact callFunction_module _ _ _ hnext
  | brIf label =>
    dsimp only at hnext
    split at hnext
    · split at hnext
      · exact hsame hnext
      · exact branch_module _ _ _ hnext
    · cases hnext
  | branch | localGet | localSet | localTee | globalGet =>
    dsimp only at hnext
    split at hnext
    · exact hsame hnext
    · cases hnext
  | globalSet index =>
    dsimp only at hnext
    split at hnext
    · obtain ⟨-, rfl⟩ := Move.next.inj hnext
      rfl
    · cases hnext
  | tableGrow table =>
    dsimp only at hnext
    split at hnext
    · obtain ⟨-, rfl⟩ := Move.next.inj hnext
      exact growTable_module _ _ _
    · cases hnext
  | load =>
    dsimp only at hnext
    split at hnext
    · split at hnext
      · exact hsame hnext
      · cases hnext
    · cases hnext
  | store =>
    dsimp only at hnext
    split at hnext
    · split at hnext
      · next hstored =>
        obtain ⟨-, rfl⟩ := Move.next.inj hnext
        exact storeAt_module hstored
      · cases hnext
    · cases hnext
  | memoryGrow =>
    dsimp only at hnext
    split at hnext <;> cases hnext
  | _ =>
    -- what is left works on the stack alone
    dsimp only at hnext
    split at hnext
    · exact hsame hnext
    · cases hnext
    · cases hnext

/-- Every step of a machine keeps its module. -/
theorem step_module (m : Machine) (i : Instance) : (m.step i).KeepsModule i := by
  intro m' i' hnext
  unfold step at hnext
  split at hnext
  · exact execute_module _ _ _ hnext
  · split at hnext
    · obtain ⟨-, rfl⟩ := Move.next.inj hnext
      rfl
    · exact leave_module _ _ hnext

/-- A machine leaves the module of its instance alone however far it gets. -/
theorem runFor_module (function : String) (fuel : Nat) (m : Machine) (i : Instance)
    (h : HostState) : (runFor function fuel m i h).2.1.module = i.module := by
  -- No step of a machine exchanges the module it runs; the host writes memory and nothing else.
  induction fuel generalizing m i h with
  | zero => rfl
  | succ fuel ih =>
    unfold runFor
    split
    · next hnext => rw [ih, step_module m i hnext]
    · rfl
    · rfl
    · rfl
    · rw [ih, growMemory_module]
    · next qualified f args m hfound =>
      rcases f.call qualified args i.hostMemory h with ⟨reply, memory, h'⟩
      have hkept := i.setHostMemory_module memory
      dsimp only
      split
      · exact hkept
      · exact hkept
      · exact hkept
      · split
        · exact hkept
        · rw [ih, hkept]

end Machine
end Wasm

/-! ## Guests of either kind -/

/-- The module that a guest was made of. -/
def GuestInstance.origin : GuestInstance → GuestModule
  | script m _ _ => .script m
  | wasm i => .wasm i.module

namespace GuestRun

/-- An instance in which a function was entered is one of the same module. -/
theorem enter_origin (function : String) (fuel index : Nat) (args : List Value)
    (i : Wasm.Instance) (h : HostState) :
    (enter function fuel index args i h).2.1.origin = .wasm i.module := by
  unfold enter
  split
  · rfl
  · next qualified f hfound =>
    split
    · rfl
    · rcases f.call qualified args ⟨0, ∅⟩ h with ⟨reply, memory, h'⟩
      dsimp only
      split
      · rfl
      · rfl
      · rfl
      · split <;> rfl
  · split
    · rfl
    · exact congrArg GuestModule.wasm (Wasm.Machine.runFor_module _ _ _ _ _)

/-- A slice of a guest leaves it the module that it was made of. -/
theorem advanceFor_origin (gates : List String) (fuel : Nat) (run : GuestRun)
    (g : GuestInstance) (h : HostState) :
    (run.advanceFor gates fuel g h).2.1.origin = g.origin := by
  unfold advanceFor
  split
  · rfl
  · exact enter_origin _ _ _ _ _ _
  · exact congrArg GuestModule.wasm (Wasm.Machine.runFor_module _ _ _ _ _)
  · rfl

/-- A guest that is interrupted is still one of the same module or script. -/
theorem interruptFor_origin (gates : List String) (fuel : Nat) (run : GuestRun) (e : Failure)
    (g : GuestInstance) (h : HostState) :
    (run.interruptFor gates fuel e g h).2.1.origin = g.origin := by
  unfold interruptFor
  split <;> rfl

end GuestRun

namespace GuestInstance

variable {g g' : GuestInstance} {name : String}

theorem setMemory_origin (g : GuestInstance) (memory : Memory) :
    (g.setMemory memory).origin = g.origin := by
  cases g with
  | script m heap imports => rfl
  | wasm i => exact congrArg GuestModule.wasm (i.setHostMemory_module memory)

/-- A guest exports what its module exports. -/
theorem hasFunction_of_origin (hsame : g'.origin = g.origin) :
    g'.hasFunction name = g.hasFunction name := by
  cases g with
  | script m heap imports =>
    cases g' with
    | script m' heap' imports' =>
      obtain rfl := GuestModule.script.inj hsame
      rfl
    | wasm i' => cases hsame
  | wasm i =>
    cases g' with
    | script m' heap' imports' => cases hsame
    | wasm i' =>
      have hmodules : i'.module = i.module := GuestModule.wasm.inj hsame
      show (i'.module.exportedFunctions.lookup name).isSome = _
      rw [hmodules]
      rfl

/-- A call of a function that a guest exports begins. Arguments that do not have the function's
types are found by the call itself. -/
theorem start_of_hasFunction (hexported : g.hasFunction name) (args : List Value) :
    ∃ run, g.start name args = .ok run := by
  cases g with
  | script m heap imports =>
    obtain ⟨code, hthere⟩ := Option.isSome_iff_exists.mp hexported
    unfold start
    dsimp only
    rw [hthere]
    exact ⟨_, rfl⟩
  | wasm i =>
    obtain ⟨index, hthere⟩ := Option.isSome_iff_exists.mp hexported
    unfold start
    dsimp only
    rw [hthere]
    exact ⟨_, rfl⟩

end GuestInstance
end SandboxPool
