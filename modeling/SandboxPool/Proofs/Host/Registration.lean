import SandboxPool.Proofs.Host.Imports

/-!
# Capabilities that register functions

Capabilities register their functions one after another, one at a time or a group at a time, and
the first pair of names that is taken already ends it all. However the functions are spread over
capabilities and groups, this is one walk over all that is asked for: the namespace holds what was
walked past, sorted by its pairs, so that nothing is left of the order of the walk
(`Namespace.enrol_settled`).
-/

namespace SandboxPool

namespace Namespace

variable {F : Type} {ns : Namespace F}

/-! ## Parts of a walk -/

/-- What follows is only defined if all before it was. -/
theorem defineEach_append (ns : Namespace F) (is js : List (Import F)) :
    ns.defineEach (is ++ js) =
      Building.andThen (ns.defineEach is) fun _ ns => ns.defineEach js := by
  induction is generalizing ns with
  | nil => rfl
  | cons i rest ih =>
    rw [List.cons_append, defineEach, defineEach]
    cases ns.define i.group i.name i.function with
    | error e => rfl
    | ok ns' => exact ih ns'

/-- Registering functions under a group defines them one after another. -/
theorem register_eq (ns : Namespace F) (group : String) (fs : List (String × F)) :
    ns.register group fs = ns.defineEach (fs.map fun f => ⟨group, f.1, f.2⟩) := by
  induction fs generalizing ns with
  | nil => rfl
  | cons f rest ih =>
    rw [register, List.map_cons, defineEach]
    cases ns.define group f.1 f.2 with
    | error e => rfl
    | ok ns' => exact ih ns'

/-! ## Capabilities -/

/-- What a capability asks of a namespace: to define one function, or several of a group. -/
inductive Registration (F : Type) where
  | define (group name : String) (function : F)
  | register (group : String) (functions : List (String × F))

/-- The entries that are asked for, in order. -/
def Registration.entries : Registration F → List (Import F)
  | .define group name function => [⟨group, name, function⟩]
  | .register group functions => functions.map fun f => ⟨group, f.1, f.2⟩

/-- Does what a capability asks. -/
def carryOut (ns : Namespace F) : Registration F → Outcome Unit × Namespace F
  | .define group name function =>
    match ns.define group name function with
    | .ok ns => (.ok (), ns)
    | .error e => (.error e, ns)
  | .register group functions => ns.register group functions

/-- Does all that a capability asks, one after another up to the first failure. -/
def carryOutAll (ns : Namespace F) : List (Registration F) → Outcome Unit × Namespace F
  | [] => (.ok (), ns)
  | r :: rest => Building.andThen (ns.carryOut r) fun _ ns => ns.carryOutAll rest

/-- Admits capabilities one after another up to the first that fails. -/
def enrol (ns : Namespace F) : List (List (Registration F)) → Outcome Unit × Namespace F
  | [] => (.ok (), ns)
  | c :: rest => Building.andThen (ns.carryOutAll c) fun _ ns => ns.enrol rest

theorem carryOut_eq (ns : Namespace F) (r : Registration F) :
    ns.carryOut r = ns.defineEach r.entries := by
  cases r with
  | define group name function =>
    rw [carryOut, Registration.entries, defineEach]
    cases ns.define group name function <;> rfl
  | register group functions => exact ns.register_eq group functions

/-- All registrations of a capability are one walk through their entries. -/
theorem carryOutAll_eq (ns : Namespace F) (c : List (Registration F)) :
    ns.carryOutAll c = ns.defineEach (c.flatMap Registration.entries) := by
  induction c generalizing ns with
  | nil => rfl
  | cons r rest ih =>
    rw [carryOutAll, List.flatMap_cons, defineEach_append, carryOut_eq]
    congr 1
    funext _ ns'
    exact ih ns'

/-- How the entries are spread over capabilities makes no difference. -/
theorem enrol_eq (ns : Namespace F) (cs : List (List (Registration F))) :
    ns.enrol cs = ns.defineEach (cs.flatten.flatMap Registration.entries) := by
  induction cs generalizing ns with
  | nil => rfl
  | cons c rest ih =>
    rw [enrol, List.flatten_cons, List.flatMap_append, defineEach_append, carryOutAll_eq]
    congr 1
    funext _ ns'
    exact ih ns'

/-- Enrolling several capabilities is one walk through the entries of all. -/
theorem enrol_walked (cs : List (List (Registration F))) :
    Walked [] (cs.flatten.flatMap Registration.entries) (empty.enrol cs) := by
  rw [enrol_eq]
  exact holds_empty.walked _

/-- Capabilities may be admitted in any order. -/
theorem enrol_perm {cs cs' : List (List (Registration F))} {ns : Namespace F}
    (h : empty.enrol cs = (.ok (), ns)) (hperm : cs'.Perm cs) : empty.enrol cs' = (.ok (), ns) := by
  have hwalked := enrol_walked cs
  have hwalked' := enrol_walked cs'
  have hentries : (cs'.flatten.flatMap Registration.entries).Perm
      (cs.flatten.flatMap Registration.entries) := hperm.flatten.flatMap_right _
  rw [h] at hwalked
  have hok : (empty.enrol cs').1 = .ok () :=
    hwalked'.ok_iff.mpr ((hentries.map _).nodup_iff.mpr hwalked.holds.nodup)
  rw [← Prod.eta (empty.enrol cs'), hok] at hwalked' ⊢
  rw [hwalked'.holds.eq_of_perm hwalked.holds hentries]

theorem passed_andThen (r : Outcome Unit × Namespace F)
    (next : Namespace F → Outcome Unit × Namespace F) :
    passed (Building.andThen r fun _ ns => next ns) =
      (passed r).bind fun ns => passed (next ns) := by
  obtain ⟨_ | _, ns⟩ := r <;> rfl

end Namespace

open Namespace

namespace Capability

/-- What a capability asks: one built in registers its group, a custom one defines its functions
one by one. -/
def registrations : Capability → List (Registration HostFunction)
  | custom c => c.functions.map fun f => .define f.1 f.2.1 f.2.2
  | c => [.register c.group c.builtIns]

/-- The functions of a capability are the entries that it asks for. -/
theorem entries_registrations (c : Capability) :
    c.registrations.flatMap Registration.entries =
      entriesOf c.functions := by
  unfold entriesOf
  cases c with
  | custom custom =>
    simp [registrations, functions, Registration.entries, List.flatMap_map, ← List.map_eq_flatMap]
  | _ => simp [registrations, functions, Registration.entries]

theorem defineAll_functions (imports : Imports) (c : Capability) :
    defineAll imports c.functions = passed (imports.carryOutAll c.registrations) := by
  rw [defineAll_eq, carryOutAll_eq, entries_registrations]

end Capability

namespace Building

variable {imports : Imports} {h : HostState} {capabilities : List Capability}

/-- A capability whose own hooks do not fail only registers its functions. -/
theorem exportOne_eq_carryOutAll {slot : Nat} {c : Capability}
    (hwilling : ∀ custom, c = .custom custom →
      custom.failCreate.report slot = none ∧ custom.failExport.report slot = none) :
    (andThen (create slot c h) fun _ h => exportFunctions slot c imports h).1 =
      passed (imports.carryOutAll c.registrations) := by
  rw [← Capability.defineAll_functions]
  cases c with
  | custom custom =>
    obtain ⟨hcreated, hexported⟩ := hwilling custom rfl
    simp only [create, exportFunctions, hcreated, hexported, failing, andThen]
    cases Capability.defineAll imports (Capability.custom custom).functions <;> rfl
  | _ => rfl

/-- A pool admits its capabilities one after another. -/
theorem exportAll_eq_enrol {slot : Nat}
    (hwilling : ∀ custom, .custom custom ∈ capabilities →
      custom.failCreate.report slot = none ∧ custom.failExport.report slot = none) :
    (exportAll slot capabilities imports h).1 =
      passed (imports.enrol (capabilities.map Capability.registrations)) := by
  induction capabilities generalizing imports h with
  | nil => rfl
  | cons c rest ih =>
    -- No capability has a failure of its own, so the first to fail fails on a pair defined twice.
    have hfirst : (andThen (create slot c h) fun _ h => exportFunctions slot c imports h).1 =
        passed (imports.carryOutAll c.registrations) :=
      exportOne_eq_carryOutAll fun custom hsame => hwilling custom (hsame ▸ List.mem_cons_self)
    have hothers {imports : Imports} {h : HostState} : (exportAll slot rest imports h).1 =
        passed (imports.enrol (rest.map Capability.registrations)) :=
      ih fun custom hmember => hwilling custom (List.mem_cons_of_mem c hmember)
    rw [List.map_cons, enrol, passed_andThen, ← hfirst, exportAll]
    rcases create slot c h with ⟨e | _, h₁⟩
    · rfl
    · dsimp only [andThen]
      rcases exportFunctions slot c imports h₁ with ⟨e | imports₁, h₂⟩
      · rfl
      · exact hothers

end Building

namespace Namespace

/-- Capabilities are admitted just when all the pairs that they ask for are different. The namespace
then holds what each asked for, whichever came first. Otherwise the failure names the first pair
that was asked for before, and the namespace holds what stood before it. A pool that admits its own
capabilities comes to the same, as far as their own hooks do not fail. -/
theorem enrol_settled (cs : List (List (Registration HostFunction))) :
    let asked := cs.flatten.flatMap Registration.entries
    let result := (Namespace.enrol .empty cs).1
    let ns := (Namespace.enrol .empty cs).2
    (result = .ok () ↔ (asked.map Import.pair).Nodup) ∧
    (result = .ok () → ns.Holds asked ∧
      ∀ cs' : List (List (Registration HostFunction)), cs'.Perm cs →
        Namespace.enrol .empty cs' = (.ok (), ns)) ∧
    (∀ e, result = .error e → ∃ before i after, asked = before ++ i :: after ∧
      (before.map Import.pair).Nodup ∧ i.pair ∈ before.map Import.pair ∧
      e = ⟨.duplicateFunction i.group i.name, []⟩ ∧ ns.Holds before) ∧
    ∀ (capabilities : List Capability) (slot : Nat) (h : HostState),
      capabilities.map Capability.registrations = cs →
      (∀ custom, .custom custom ∈ capabilities →
        custom.failCreate.report slot = none ∧ custom.failExport.report slot = none) →
      (Building.exportAll slot capabilities .empty h).1 = passed (result, ns) := by
  intro asked result ns
  have hwalked := enrol_walked cs
  refine ⟨hwalked.ok_iff, fun hok => ?_, fun e hfailed => hwalked.error hfailed,
    fun capabilities slot h hsame hwilling => ?_⟩
  · have hboth : Namespace.enrol .empty cs = (.ok (), ns) := Prod.ext hok rfl
    rw [hboth] at hwalked
    exact ⟨hwalked.holds, fun cs' hperm => enrol_perm hboth hperm⟩
  · rw [Building.exportAll_eq_enrol hwilling, hsame]

/-- A capability with a function of its own and another one in a group of somebody else's. -/
def clockBeside (name : String) : Capability :=
  let now : HostFunction := ⟨⟨[], [.i64]⟩, .custom (.returns [])⟩
  .custom ⟨"clock", [("clock", "now", now), ("interop", name, now)], false, .always none,
    .always none, [], .always none⟩

/-- Beside the functions on buffers there is room for another name, in either order, but not for one
of theirs. -/
theorem enrol_settled_clock :
    let fine := [Capability.interop, clockBeside "now"].map Capability.registrations
    let clash := [Capability.interop, clockBeside "readBuffer"].map Capability.registrations
    let slot := Building.freshHost 0 default .empty
    ((Namespace.enrol .empty fine).1 = .ok () ∧
      (Namespace.enrol .empty fine).2.Holds (fine.flatten.flatMap Registration.entries) ∧
      Namespace.enrol .empty fine.reverse = (.ok (), (Namespace.enrol .empty fine).2)) ∧
    (Namespace.enrol .empty clash).1 = refuse (.duplicateFunction "interop" "readBuffer") ∧
      (∃ before i after, clash.flatten.flatMap Registration.entries = before ++ i :: after ∧
        (before.map Import.pair).Nodup ∧ i.pair ∈ before.map Import.pair ∧
        (⟨.duplicateFunction "interop" "readBuffer", []⟩ : Failure) =
          ⟨.duplicateFunction i.group i.name, []⟩ ∧
        (Namespace.enrol .empty clash).2.Holds before) ∧
      (Building.exportAll 0 [.interop, clockBeside "readBuffer"] .empty slot).1 =
        passed (Namespace.enrol .empty clash) := by
  intro fine clash slot
  obtain ⟨-, hends, -, -⟩ := enrol_settled fine
  obtain ⟨-, -, hfails, hpools⟩ := enrol_settled clash
  have hadmitted : (Namespace.enrol .empty fine).1 = .ok () := rfl
  have hrefused : (Namespace.enrol .empty clash).1 =
      refuse (.duplicateFunction "interop" "readBuffer") := rfl
  obtain ⟨hholds, hreordered⟩ := hends hadmitted
  refine ⟨⟨hadmitted, hholds, hreordered _ fine.reverse_perm⟩, hrefused, hfails _ hrefused, ?_⟩
  refine hpools [.interop, clockBeside "readBuffer"] 0 slot rfl fun custom hmember => ?_
  rcases List.mem_cons.mp hmember with hother | hmember
  · cases hother
  · cases List.mem_singleton.mp hmember
    exact ⟨rfl, rfl⟩

end Namespace
end SandboxPool
