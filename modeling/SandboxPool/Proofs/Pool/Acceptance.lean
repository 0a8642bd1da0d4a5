import SandboxPool.Proofs.Host.Imports
import SandboxPool.Proofs.Pool.Opening

/-!
# Which pools can be made

A pool is built slot by slot, each slot in phases, and ends with the first failure it meets. Seen
from outside this is much simpler: whether a pool of built-in capabilities can be made of a script
is decided by the options and the script alone. `PoolOptions.refusal?` says why not, in the order in
which the reasons count, and knows nothing of slots, namespaces or instances; `openPool_accepted`
says that a pool is made just when there is no reason against it.
-/

namespace SandboxPool

/-- What comes of an attempt: the failure that stands against it, or a success. -/
def Agrees {α : Type} (refusal : Option Failure) (result : Outcome α) : Prop :=
  match refusal with
  | some e => result = .error e
  | none => ∃ a, result = .ok a

theorem Agrees.fails {α : Type} {refusal : Option Failure} {result : Outcome α}
    (hagrees : Agrees refusal result) (e : Failure) : result = .error e ↔ refusal = some e := by
  cases refusal with
  | some stands =>
    obtain rfl : result = .error stands := hagrees
    exact ⟨fun hsame => congrArg some (Except.error.inj hsame), fun hsame => by cases hsame; rfl⟩
  | none =>
    obtain ⟨a, rfl⟩ : ∃ a, result = .ok a := hagrees
    exact ⟨nofun, nofun⟩

theorem Agrees.succeeds {α : Type} {refusal : Option Failure} {result : Outcome α}
    (hagrees : Agrees refusal result) : (∃ a, result = .ok a) ↔ refusal = none := by
  cases refusal with
  | some stands =>
    obtain rfl : result = .error stands := hagrees
    exact ⟨nofun, nofun⟩
  | none => exact ⟨fun _ => rfl, fun _ => hagrees⟩

/-! ## Reasons against a pool -/

/-- The pairs of names of functions, in order. -/
def Capability.pairsOf (fs : List (String × String × HostFunction)) : List (String × String) :=
  fs.map fun f => (f.1, f.2.1)

namespace PoolOptions

/-- The pairs of names of all functions that the capabilities define, in order. -/
def pairs (o : PoolOptions) : List (String × String) :=
  Capability.pairsOf (o.capabilities.flatMap Capability.functions)

/-- What makes the options themselves unusable. -/
def unusable? (o : PoolOptions) : Option Failure :=
  if o.concurrency = 0 then
    some (Cause.configuration "concurrency" "must be greater than zero")
  else if o.timeout.nanoseconds = 0 then
    some (Cause.configuration "timeout" "must be greater than zero")
  else if o.module = [] then some (Cause.configuration "module" "module bytes are empty")
  else if o.memoryExport = "" then
    some (Cause.configuration "memory_export" "must not be empty")
  else none

/-- What keeps the capabilities and a script from each other. -/
def mismatch? (o : PoolOptions) (m : ScriptModule) : Option Failure :=
  match firstRepeated [] o.pairs, m.imports.find? (· ∉ o.pairs) with
  | some (group, name), _ => some (Cause.duplicateFunction group name)
  | none, some (group, name) =>
    some (Cause.instantiation
      ("module '" ++ m.name ++ "' imports '" ++ group ++ "." ++ name ++ "' which is not defined"))
  | none, none =>
    if ¬ (m.pages.isSome ∧ o.memoryExport = "memory") then some (Cause.memoryMissing o.memoryExport)
    else if ¬ (.handlers ∈ o.capabilities → (m.exports.lookup "handleEvent").isSome) then
      some ⟨.registration "handlers" "guest module does not implement 'handleEvent'",
        ["guest module does not implement 'handleEvent'"]⟩
    else none

/-- Why no pool can be made: the first reason that there is. -/
def refusal? (o : PoolOptions) (modules : List ScriptModule) : Option Failure :=
  match o.unusable?, Text.Utf8.decode o.module with
  | some e, _ => some e
  | none, .error fault =>
    some ⟨.compilation "module bytes are not a stub module name", [fault.message]⟩
  | none, .ok name =>
    match modules.find? fun m => m.name = name with
    | none => some (Cause.compilation ("unknown stub module '" ++ name ++ "'"))
    | some m => o.mismatch? m

/-- A pool of these options can be made of the script `m`. -/
structure Acceptable (o : PoolOptions) (modules : List ScriptModule) (m : ScriptModule) : Prop where
  concurrency : 0 < o.concurrency
  timeout : 0 < o.timeout.nanoseconds
  module : o.module ≠ []
  memoryExport : o.memoryExport ≠ ""
  registered : ∃ name, Text.Utf8.decode o.module = .ok name ∧
    modules.find? (fun m => m.name = name) = some m
  distinct : o.pairs.Nodup
  defined : ∀ i ∈ m.imports, i ∈ o.pairs
  memory : m.pages.isSome ∧ o.memoryExport = "memory"
  handles : .handlers ∈ o.capabilities → (m.exports.lookup "handleEvent").isSome

variable {o : PoolOptions} {modules : List ScriptModule} {m : ScriptModule}

theorem unusable?_eq_none : o.unusable? = none ↔ 0 < o.concurrency ∧ 0 < o.timeout.nanoseconds ∧
    o.module ≠ [] ∧ o.memoryExport ≠ "" := by
  rw [Nat.pos_iff_ne_zero, Nat.pos_iff_ne_zero]
  unfold unusable?
  split
  · next hnone => simp [hnone]
  · next hsome =>
    split
    · next hzero => simp [hzero]
    · next hlong =>
      split
      · next hempty => simp [hempty]
      · next hbytes =>
        split
        · next hempty => simp [hempty]
        · next hnamed => exact ⟨fun _ => ⟨hsome, hlong, hbytes, hnamed⟩, fun _ => rfl⟩

theorem mismatch?_eq_none : o.mismatch? m = none ↔ o.pairs.Nodup ∧ (∀ i ∈ m.imports, i ∈ o.pairs) ∧
    (m.pages.isSome ∧ o.memoryExport = "memory") ∧
    (.handlers ∈ o.capabilities → (m.exports.lookup "handleEvent").isSome) := by
  -- The checks of a module, each put as what it comes to when nothing is found.
  have hdistinct : firstRepeated [] o.pairs = none ↔ o.pairs.Nodup := by
    rw [firstRepeated_eq_none]
    exact ⟨fun h => h.1, fun h => ⟨h, fun _ _ => List.not_mem_nil⟩⟩
  have hdefined : m.imports.find? (· ∉ o.pairs) = none ↔ ∀ i ∈ m.imports, i ∈ o.pairs := by
    simp [List.find?_eq_none]
  rw [← hdistinct, ← hdefined]
  unfold mismatch?
  split
  · next hagain => exact ⟨nofun, fun hall => by rw [hagain] at hall; cases hall.1⟩
  · next hmissing => exact ⟨nofun, fun hall => by rw [hmissing] at hall; cases hall.2.1⟩
  · next honce hfound =>
    split
    · next hbare => exact ⟨nofun, fun hall => absurd hall.2.2.1 hbare⟩
    · next hmemory =>
      split
      · next hdeaf => exact ⟨nofun, fun hall => absurd hall.2.2.2 hdeaf⟩
      · next hhandles =>
        have hall := And.intro (Classical.not_not.mp hmemory) (Classical.not_not.mp hhandles)
        exact ⟨fun _ => ⟨honce, hfound, hall⟩, fun _ => rfl⟩

/-- There is no reason against a pool just when all is in order for some script. -/
theorem refusal?_eq_none : o.refusal? modules = none ↔ ∃ m, o.Acceptable modules m := by
  constructor
  · intro hnone
    unfold refusal? at hnone
    split at hnone
    · cases hnone
    · cases hnone
    · next name husable hread =>
      split at hnone
      · cases hnone
      · next m hfound =>
        obtain ⟨hconcurrency, htimeout, hbytes, hexport⟩ := unusable?_eq_none.mp husable
        obtain ⟨hdistinct, hdefined, hmemory, hhandles⟩ := mismatch?_eq_none.mp hnone
        exact ⟨m, hconcurrency, htimeout, hbytes, hexport, ⟨name, hread, hfound⟩, hdistinct,
          hdefined, hmemory, hhandles⟩
  · rintro ⟨m, hfits⟩
    obtain ⟨name, hread, hfound⟩ := hfits.registered
    have husable := unusable?_eq_none.mpr
      ⟨hfits.concurrency, hfits.timeout, hfits.module, hfits.memoryExport⟩
    have hmatching := mismatch?_eq_none.mpr
      ⟨hfits.distinct, hfits.defined, hfits.memory, hfits.handles⟩
    unfold refusal?
    rw [husable, hread]
    dsimp only
    rw [hfound]
    exact hmatching

/-- How many contexts are asked for makes no difference, as long as there is one. -/
theorem refusal?_concurrency (hasked : 0 < o.concurrency) {n : Nat} (hpositive : 0 < n) :
    ({ o with concurrency := n } : PoolOptions).refusal? modules = o.refusal? modules := by
  have husable : ({ o with concurrency := n } : PoolOptions).unusable? = o.unusable? := by
    unfold unusable?
    rw [if_neg (Nat.ne_of_gt hpositive), if_neg (Nat.ne_of_gt hasked)]
  unfold refusal?
  rw [husable]
  rfl

/-- The options are checked in the order in which the reasons count. -/
theorem validate_agrees (o : PoolOptions) : Agrees o.unusable? o.validate := by
  unfold unusable? validate
  by_cases hnone : o.concurrency = 0
  · rw [if_pos hnone, if_pos hnone]
    rfl
  rw [if_neg hnone, if_neg hnone]
  by_cases hinstant : o.timeout.nanoseconds = 0
  · rw [if_pos hinstant]
    simp only [if_pos hinstant]
    rfl
  rw [if_neg hinstant]
  simp only [if_neg hinstant]
  by_cases hempty : o.module = []
  · rw [if_pos hempty]
    simp only [hempty]
    rfl
  rw [if_neg hempty]
  simp only [List.isEmpty_iff, if_neg hempty]
  by_cases hnameless : o.memoryExport = ""
  · rw [if_pos hnameless]
    simp only [hnameless]
    rfl
  rw [if_neg hnameless]
  simp only [String.isEmpty_iff, if_neg hnameless]
  exact ⟨(), rfl⟩

end PoolOptions
/-! ## Building a guest -/

namespace Capability

/-- A capability of the library's own. -/
def BuiltIn : Capability → Prop
  | custom _ => False
  | _ => True

theorem map_pair_entriesOf (fs : List (String × String × HostFunction)) :
    (entriesOf fs).map Import.pair = pairsOf fs := by
  unfold entriesOf pairsOf
  rw [List.map_map]
  rfl

/-- Functions are defined up to the first pair that was defined before, if there is one. -/
theorem defineAll_empty (fs : List (String × String × HostFunction)) :
    match firstRepeated [] (pairsOf fs) with
    | some (group, name) => defineAll .empty fs = refuse (.duplicateFunction group name)
    | none => ∃ imports, defineAll .empty fs = .ok imports ∧ imports.Holds (entriesOf fs) := by
  have hwalked := (Namespace.holds_empty.walked (entriesOf fs)).by_repetition
  rw [map_pair_entriesOf] at hwalked
  rw [defineAll_eq]
  unfold Namespace.passed
  cases hagain : firstRepeated [] (pairsOf fs) with
  | some p =>
    rw [hagain] at hwalked
    rw [hwalked]
    rfl
  | none =>
    rw [hagain] at hwalked
    rw [hwalked.1]
    exact ⟨_, rfl, hwalked.2⟩

theorem defineAll_append (ns : Imports) (fs more : List (String × String × HostFunction)) :
    defineAll ns (fs ++ more) = (defineAll ns fs).bind fun ns => defineAll ns more := by
  induction fs generalizing ns with
  | nil => rfl
  | cons f rest ih =>
    obtain ⟨group, name, function⟩ := f
    rw [List.cons_append, defineAll, defineAll]
    cases ns.define group name function with
    | error e => rfl
    | ok ns' => exact ih ns'

end Capability

namespace Building

variable {o : PoolOptions} {m : ScriptModule} {capabilities : List Capability}

theorem andThen_of_ok {α β σ : Type} {r : Outcome α × σ} {a : α} (hok : r.1 = .ok a)
    (next : α → σ → Outcome β × σ) : andThen r next = next a r.2 := by
  obtain ⟨_, s⟩ := r
  subst hok
  rfl

theorem andThen_of_error {α β σ : Type} {r : Outcome α × σ} {e : Failure} (hfailed : r.1 = .error e)
    (next : α → σ → Outcome β × σ) : (andThen r next).1 = .error e := by
  obtain ⟨_, s⟩ := r
  subst hfailed
  rfl

/-- Capabilities of the library's own only define their functions, one after another. -/
theorem exportAll_builtIn (hbuiltIn : ∀ c ∈ capabilities, c.BuiltIn) (slot : Nat)
    (imports : Imports) (h : HostState) : exportAll slot capabilities imports h =
      (Capability.defineAll imports (capabilities.flatMap Capability.functions), h) := by
  induction capabilities generalizing imports with
  | nil => rfl
  | cons c rest ih =>
    have hone : create slot c h = (.ok (), h) ∧
        exportFunctions slot c imports h = (Capability.defineAll imports c.functions, h) := by
      cases c with
      | custom custom => exact absurd (hbuiltIn _ List.mem_cons_self) id
      | _ => exact ⟨rfl, rfl⟩
    rw [exportAll, hone.1, List.flatMap_cons, Capability.defineAll_append]
    show andThen (exportFunctions slot c imports h) _ = _
    rw [hone.2]
    cases Capability.defineAll imports c.functions with
    | error e => rfl
    | ok imports => exact ih (fun d hmember => hbuiltIn d (List.mem_cons_of_mem _ hmember)) imports

/-- Of the library's own capabilities only the handlers look for an export, and only for one. -/
theorem bindAll_builtIn (hbuiltIn : ∀ c ∈ capabilities, c.BuiltIn) (slot : Nat)
    (heap : Option Heap) (imports : Imports) (h : HostState) :
    (bindAll slot capabilities (.script m heap imports) h).1 =
      if .handlers ∈ capabilities → (m.exports.lookup "handleEvent").isSome then .ok ()
      else .error ⟨.registration "handlers" "guest module does not implement 'handleEvent'",
        ["guest module does not implement 'handleEvent'"]⟩ := by
  induction capabilities generalizing h with
  | nil => exact (if_pos nofun).symm
  | cons c rest ih =>
    have hothers : ∀ c ∈ rest, c.BuiltIn := fun d hmember =>
      hbuiltIn d (List.mem_cons_of_mem _ hmember)
    -- Of the capabilities that are built in, only the handlers look anything up in the guest.
    by_cases hhears : c = .handlers
    · subst hhears
      cases hexported : m.exports.lookup "handleEvent" with
      | none =>
        have hmissed : bind slot .handlers (.script m heap imports) h =
            (refuse (.exportMissing "handleEvent"), h) := by
          simp only [bind, GuestInstance.function, GuestInstance.hasFunction,
            Capability.handleEventExport, hexported]
          rfl
        rw [if_neg fun hheard => Bool.false_ne_true (hheard List.mem_cons_self), bindAll, hmissed]
        rfl
      | some code =>
        have hheard : ∃ h', bind slot .handlers (.script m heap imports) h = (.ok (), h') := by
          simp only [bind, GuestInstance.function, GuestInstance.hasFunction,
            Capability.handleEventExport, hexported]
          exact ⟨_, rfl⟩
        obtain ⟨h', hbound⟩ := hheard
        have honward := ih hothers h'
        have hall (cs : List Capability) : .handlers ∈ cs → (some code).isSome := fun _ => rfl
        rw [hexported, if_pos (hall _)] at honward
        rw [if_pos (hall _), bindAll, hbound]
        exact honward
    · have hquiet : bind slot c (.script m heap imports) h = (.ok (), h) := by
        cases c with
        | custom custom => exact absurd (hbuiltIn _ List.mem_cons_self) id
        | handlers => exact absurd rfl hhears
        | _ => rfl
      have hsame : (.handlers ∈ c :: rest) ↔ .handlers ∈ rest := by
        simp [Ne.symm hhears]
      unfold bindAll
      rw [hquiet]
      simp only [hsame]
      exact ih hothers h

/-- A script finds a memory under one name only, and only if it has pages. -/
theorem memory_script (m : ScriptModule) (imports : Imports) (name : String) :
    ((GuestInstance.script m (m.pages.map Heap.ofPages) imports).memory name).map (fun _ => ()) =
      if m.pages.isSome ∧ name = "memory" then .ok () else refuse (.memoryMissing name) := by
  unfold GuestInstance.memory GuestInstance.exportsMemory GuestInstance.memoryExport
  cases hpages : m.pages with
  | none => simp [Except.map, refuse]
  | some n =>
    by_cases hright : name = "memory"
    · simp [hright, GuestInstance.memory?, Except.map]
    · simp [hright, Except.map, refuse]

/-- A script is instantiated if every import is defined, else it is refused for the first that is
not. -/
theorem instantiate_script {imports : Imports} {is : List (Import HostFunction)}
    (hholds : imports.Holds is) (m : ScriptModule) (limit : Nat) (h : HostState) :
    match m.imports.find? (· ∉ is.map Import.pair) with
    | some (group, name) =>
      ((GuestModule.script m).instantiate imports limit h).1 = refuse (.instantiation
        ("module '" ++ m.name ++ "' imports '" ++ group ++ "." ++ name ++
          "' which is not defined"))
    | none => ((GuestModule.script m).instantiate imports limit h).1 =
        .ok (.script m (m.pages.map Heap.ofPages) imports) := by
  have hsame : (fun i : String × String => !imports.contains i.1 i.2) =
      (· ∉ is.map Import.pair) := by
    funext i
    by_cases hthere : i ∈ is.map Import.pair
    · simp [(hholds.contains i.1 i.2).mpr hthere, hthere]
    · have hmissing : ¬ imports.contains i.1 i.2 = true := fun hc =>
        hthere ((hholds.contains _ _).mp hc)
      simp [hmissing, hthere]
  unfold GuestModule.instantiate
  dsimp only
  rw [hsame]
  cases m.imports.find? (· ∉ is.map Import.pair) with
  | none => rfl
  | some i => rfl

/-- A guest is built just when nothing keeps the capabilities and the script from each other, and
else fails for the first thing that does. -/
theorem guest_agrees (hbuiltIn : ∀ c ∈ o.capabilities, c.BuiltIn) (m : ScriptModule)
    (pool slot limit : Nat) (h : HostState) :
    Agrees (o.mismatch? m) (guest pool slot (.script m) limit o h).1 := by
  unfold guest PoolOptions.mismatch?
  rw [exportAll_builtIn hbuiltIn]
  have hregistered := Capability.defineAll_empty (o.capabilities.flatMap Capability.functions)
  rw [show Capability.pairsOf (o.capabilities.flatMap Capability.functions) = o.pairs from rfl]
    at hregistered
  -- The phases of building, in order: the first that fails decides.
  cases hagain : firstRepeated [] o.pairs with
  | some p =>
    rw [hagain] at hregistered
    rw [show Capability.defineAll _ _ = _ from hregistered]
    rfl
  | none =>
    rw [hagain] at hregistered
    obtain ⟨imports, hdefined, hholds⟩ := hregistered
    have hmade := instantiate_script hholds m limit h
    rw [Capability.map_pair_entriesOf] at hmade
    rw [show Capability.pairsOf (o.capabilities.flatMap Capability.functions) = o.pairs from rfl]
      at hmade
    rw [andThen_of_ok (r := (_, h)) hdefined]
    cases hmissing : m.imports.find? (· ∉ o.pairs) with
    | some i =>
      rw [hmissing] at hmade
      exact andThen_of_error hmade _
    | none =>
      rw [hmissing] at hmade
      rw [andThen_of_ok hmade]
      by_cases hmemory : m.pages.isSome ∧ o.memoryExport = "memory"
      · have hthere := memory_script m imports o.memoryExport
        rw [if_pos hmemory] at hthere
        rw [hthere]
        have hbound := bindAll_builtIn (m := m) hbuiltIn slot (m.pages.map Heap.ofPages) imports
          ((GuestModule.script m).instantiate imports limit h).2
        dsimp only
        rw [if_neg (not_not_intro hmemory)]
        show Agrees _ (andThen (bindAll _ _ _ _) _).1
        -- What is left is to bind, which fails when the handlers miss their export.
        by_cases hhandles : .handlers ∈ o.capabilities → (m.exports.lookup "handleEvent").isSome
        · rw [if_pos hhandles] at hbound
          rw [if_neg (not_not_intro hhandles), andThen_of_ok hbound]
          exact ⟨_, rfl⟩
        · rw [if_neg hhandles] at hbound
          rw [if_pos hhandles]
          exact andThen_of_error hbound _
      · have hthere := memory_script m imports o.memoryExport
        rw [if_neg hmemory] at hthere
        dsimp only
        rw [hthere, if_pos hmemory]
        rfl

end Building

namespace World

variable {w : World} {o : PoolOptions} {modules : List ScriptModule} {m : ScriptModule}

/-- Contexts are built just when one of them can be. -/
theorem buildContexts_agrees (hbuiltIn : ∀ c ∈ o.capabilities, c.BuiltIn) (m : ScriptModule)
    (id count slot : Nat) (w : World) :
    Agrees (if count = 0 then none else o.mismatch? m)
      (buildContexts id (.script m) o count slot w).1 := by
  induction count generalizing slot w with
  | zero => exact ⟨[], rfl⟩
  | succ count ih =>
    have hone := Building.guest_agrees hbuiltIn m id slot w.engine.memoryLimit
      (Building.freshHost slot w.services w.journal)
    rw [if_neg (Nat.succ_ne_zero count)]
    unfold buildContexts
    rcases hmade : Building.guest id slot (.script m) w.engine.memoryLimit o
      (Building.freshHost slot w.services w.journal) with ⟨built, h⟩
    rw [hmade] at hone
    -- Every slot is built from one module and meets the same mismatch, so the first one decides.
    cases hmismatch : o.mismatch? m with
    | some e =>
      rw [hmismatch] at hone
      obtain rfl : built = .error e := hone
      rfl
    | none =>
      rw [hmismatch] at hone
      obtain ⟨guest, rfl⟩ : ∃ guest, built = .ok guest := hone
      dsimp only [freshScope]
      have hothers := ih (slot + 1) { w with
        services := h.services, journal := h.journal, nextScope := w.nextScope + 1 }
      rw [hmismatch, ite_self] at hothers
      obtain ⟨rest, hall⟩ := hothers
      rw [hall]
      exact ⟨_, rfl⟩

/-- Once its options are usable and its module is compiled, a pool is made just when its contexts
can be built. -/
theorem openPool_of_compiled (hbuiltIn : ∀ c ∈ o.capabilities, c.BuiltIn)
    (husable : o.unusable? = none)
    (hcompiled : w.engine.compile o.module w.journal = (.ok (.script m), w.journal)) :
    Agrees (o.mismatch? m) (w.openPool o true).1 := by
  have hasked := (PoolOptions.unusable?_eq_none.mp husable).1
  have hvalid := o.validate_agrees
  rw [husable] at hvalid
  obtain ⟨u, hvalid⟩ : ∃ u, o.validate = .ok u := hvalid
  have hcontexts := buildContexts_agrees hbuiltIn m w.nextPool o.concurrency 0
    { w with nextPool := w.nextPool + 1 }
  rw [if_neg (Nat.ne_of_gt hasked)] at hcontexts
  unfold openPool
  rw [hvalid]
  simp only [Bool.not_true, Bool.false_eq_true, if_false]
  rw [hcompiled]
  dsimp only
  rcases hmade : buildContexts w.nextPool (.script m) o o.concurrency 0
    { w with nextPool := w.nextPool + 1 } with ⟨built, w'⟩
  rw [hmade] at hcontexts
  cases hmismatch : o.mismatch? m with
  | some e =>
    rw [hmismatch] at hcontexts
    obtain rfl : built = .error e := hcontexts
    rfl
  | none =>
    rw [hmismatch] at hcontexts
    obtain ⟨all, rfl⟩ : ∃ all, built = .ok all := hcontexts
    exact ⟨_, rfl⟩

/-- Without a module there is no pool. -/
theorem openPool_of_uncompiled {e : Failure} (husable : o.unusable? = none)
    (hcompiled : w.engine.compile o.module w.journal = (.error e, w.journal)) :
    (w.openPool o true).1 = .error e := by
  have hvalid := o.validate_agrees
  rw [husable] at hvalid
  obtain ⟨u, hvalid⟩ : ∃ u, o.validate = .ok u := hvalid
  unfold openPool
  rw [hvalid]
  simp only [Bool.not_true, Bool.false_eq_true, if_false]
  rw [hcompiled]

/-- A pool is made just when there is no reason against it, and else the first reason is told. -/
theorem openPool_agrees (hengine : w.engine = .scripts modules)
    (hbuiltIn : ∀ c ∈ o.capabilities, c.BuiltIn) :
    Agrees (o.refusal? modules) (w.openPool o true).1 := by
  unfold PoolOptions.refusal?
  cases husable : o.unusable? with
  | some e =>
    have hvalid := o.validate_agrees
    rw [husable] at hvalid
    unfold openPool
    rw [show o.validate = .error e from hvalid]
    rfl
  | none =>
    cases hread : Text.Utf8.decode o.module with
    | error fault =>
      refine openPool_of_uncompiled husable ?_
      simp only [hengine, Engine.compile, hread]
    | ok name =>
      dsimp only
      cases hfound : modules.find? fun m => m.name = name with
      | none =>
        refine openPool_of_uncompiled husable ?_
        simp only [hengine, Engine.compile, hread, hfound]
        rfl
      | some m =>
        refine openPool_of_compiled hbuiltIn husable ?_
        simp only [hengine, Engine.compile, hread, hfound]

/-- What an attempt to make a pool of built-in capabilities comes to. -/
structure Decided (w : World) (o : PoolOptions) (modules : List ScriptModule) : Prop where
  /-- It succeeds just when all is in order. -/
  accepts : (∃ place, (w.openPool o true).1 = .ok place) ↔ ∃ m, o.Acceptable modules m
  /-- Else it fails for the first reason that there is. -/
  fails : ∀ e, (w.openPool o true).1 = .error e ↔ o.refusal? modules = some e
  /-- A pool that was made has as many idle contexts as were asked for, all of them new, and has
  counted nothing. -/
  holds : ∀ place, (w.openPool o true).1 = .ok place → ∃ p : Pool,
    (w.openPool o true).2.pools[place]? = some p ∧
      p.metrics = ⟨o.concurrency, o.concurrency, .zero⟩ ∧
      p.idle = List.range' w.contexts.size o.concurrency ∧
      (w.openPool o true).2.contexts.size = w.contexts.size + o.concurrency
  /-- If none was made, there is nothing new. -/
  nothing : ∀ e, (w.openPool o true).1 = .error e →
    (w.openPool o true).2.pools = w.pools ∧ (w.openPool o true).2.contexts = w.contexts
  /-- Any other number of contexts comes to the same, in whichever state the rest is. -/
  anyNumber : 0 < o.concurrency → ∀ n, 0 < n → ∀ other : World, other.engine = w.engine →
    ∀ e, (other.openPool { o with concurrency := n } true).1 = .error e ↔
      (w.openPool o true).1 = .error e

/-- Whatever modules are registered and whatever options are given, as long as their capabilities
are the library's own: a pool is made just when the options are usable, the bytes name a module, no
two capabilities define the same function, every import is defined, there is a memory to be found
and, with handlers, an export to handle events. It then has all its contexts, idle, and counts from
zero. Otherwise the first of these that is violated is told, and there is nothing new. None of this
depends on how many contexts were asked for, if any. -/
theorem openPool_decided (hengine : w.engine = .scripts modules)
    (hbuiltIn : ∀ c ∈ o.capabilities, c.BuiltIn) : Decided w o modules where
  accepts := (openPool_agrees hengine hbuiltIn).succeeds.trans PoolOptions.refusal?_eq_none
  fails := (openPool_agrees hengine hbuiltIn).fails
  holds place hmade := by
    -- A pool is made or it is not; what has been made of the world is the same in both ways.
    obtain ⟨services, journal, nextPool, nextScope, -, -, ⟨e, hhappens⟩ | hhappens⟩ :=
      openPool_cases w o true
    · rw [hhappens] at hmade
      cases hmade
    · obtain ⟨contexts, event, hlength, -, -, hhappens⟩ := hhappens
      rw [hhappens] at hmade ⊢
      obtain rfl := Except.ok.inj hmade
      refine ⟨_, withPool_pools.trans (if_pos rfl), ?_, ?_, ?_⟩
      · show (⟨(List.range' _ _).length, (List.range' _ _).length, .zero⟩ : Metrics) = _
        rw [List.length_range', hlength]
      · exact congrArg (List.range' w.contexts.size) hlength
      · exact Array.size_append.trans (congrArg (w.contexts.size + ·) hlength)
  nothing e hmade := by
    obtain ⟨services, journal, nextPool, nextScope, -, -, ⟨e, hhappens⟩ | hhappens⟩ :=
      openPool_cases w o true
    · rw [hhappens]
      exact ⟨rfl, rfl⟩
    · obtain ⟨contexts, event, -, -, -, hhappens⟩ := hhappens
      rw [hhappens] at hmade
      cases hmade
  anyNumber hasked n hpositive other hsame e := by
    rw [(openPool_agrees hengine hbuiltIn).fails,
      (openPool_agrees (o := { o with concurrency := n }) (hsame.trans hengine) hbuiltIn).fails,
      PoolOptions.refusal?_concurrency hasked hpositive]

/-- A script with a memory that asks for a buffer's size and handles events. -/
def listener : ScriptModule :=
  ⟨"ear", some 1, [("interop", "bufferSize")], [("handleEvent", [])]⟩

/-- Options for three contexts of it. -/
def listenerOptions (capabilities : List Capability) : PoolOptions :=
  ⟨[101, 97, 114], 3, .ofSeconds 1, capabilities, "memory"⟩

theorem openPool_decided_listener :
    let w := ofEngine (.scripts [listener]) default
    (∃ place, (w.openPool (listenerOptions [.handlers, .interop]) true).1 = .ok place) ∧
      (w.openPool (listenerOptions [.interop, .handlers, .interop]) true).1 =
        .error (Cause.duplicateFunction "interop" "registerBuffer") := by
  intro w
  have hbuiltIn (o : PoolOptions) (hamong : ∀ c ∈ o.capabilities, c = .interop ∨ c = .handlers) :
      ∀ c ∈ o.capabilities, c.BuiltIn := by
    intro c hmember
    rcases hamong c hmember with rfl | rfl <;> exact trivial
  have haccepted := openPool_decided (w := w) rfl
    (hbuiltIn (listenerOptions [.handlers, .interop]) (by decide))
  have hrefused := openPool_decided (w := w) rfl
    (hbuiltIn (listenerOptions [.interop, .handlers, .interop]) (by decide))
  refine ⟨haccepted.accepts.mpr (PoolOptions.refusal?_eq_none.mp ?_), (hrefused.fails _).mpr ?_⟩
  · decide +kernel
  · decide +kernel

end World
end SandboxPool
