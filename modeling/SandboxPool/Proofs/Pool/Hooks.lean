import SandboxPool.Proofs.Pool.Acceptance

/-!
# Hooks that fail

While a pool is made, the hooks of custom capabilities run: one that creates the capability, one
that defines its functions, one that binds guest exports. They may fail for any reason. Whatever
the library itself refuses while it makes a pool is a failure of construction. What a hook reports
is told as it is; only an export that is missing when a capability binds becomes a failure to
register the capability. So a pool may fail to be made for a reason of any other kind, and
`World.openPool_stopped_iff` says just when it does: at a hook that runs for some slot, with all
that comes before done. Hooks that report the same for every slot fail at the first one or not at
all.
-/

namespace SandboxPool

namespace CustomCapability

variable {c : CustomCapability} {slot : Nat} {imports : Imports} {g : GuestInstance} {e : Failure}

/-- The hooks that run for a slot before there is a guest end with a failure. -/
def StopsExport (c : CustomCapability) (slot : Nat) (imports : Imports) (e : Failure) : Prop :=
  c.failCreate.report slot = some e ∨
    c.failCreate.report slot = none ∧
      (∃ all, Capability.defineAll imports c.functions = .ok all) ∧
      c.failExport.report slot = some e

/-- The hook that binds exports of the guest of a slot finds them, and ends with a failure that is
told as it is. -/
def StopsBinding (c : CustomCapability) (slot : Nat) (g : GuestInstance) (e : Failure) : Prop :=
  (∀ name ∈ c.bind, g.hasFunction name = true) ∧ c.failBind.report slot = some e ∧
    e.kind ≠ .notImplemented

/-- No hook fails for a slot. -/
def Willing (c : CustomCapability) (slot : Nat) : Prop :=
  c.failCreate.report slot = none ∧ c.failExport.report slot = none ∧ c.failBind.report slot = none

/-- Every hook reports the same for all slots. -/
def Steady (c : CustomCapability) : Prop :=
  ∀ slot, c.failCreate.report slot = c.failCreate.report 0 ∧
    c.failExport.report slot = c.failExport.report 0 ∧ c.failBind.report slot = c.failBind.report 0

theorem Willing.no_export (hwilling : c.Willing slot) : ¬ c.StopsExport slot imports e := by
  obtain ⟨hcreated, hexported, -⟩ := hwilling
  rintro (hstops | ⟨-, -, hstops⟩)
  · rw [hcreated] at hstops
    cases hstops
  · rw [hexported] at hstops
    cases hstops

theorem Willing.no_binding (hwilling : c.Willing slot) : ¬ c.StopsBinding slot g e := by
  rintro ⟨-, hstops, -⟩
  rw [hwilling.2.2] at hstops
  cases hstops

/-- Hooks that report the same for every slot are willing for all if they are for the first. -/
theorem Steady.willing (hsteady : c.Steady) (hwilling : c.Willing 0) (slot : Nat) :
    c.Willing slot := by
  obtain ⟨hcreate, hexport, hbind⟩ := hsteady slot
  exact ⟨hcreate.trans hwilling.1, hexport.trans hwilling.2.1, hbind.trans hwilling.2.2⟩

end CustomCapability

/-! ## What the library refuses -/

/-- A namespace refuses a name that is taken, which is a failure of construction. -/
theorem Capability.defineAll_kind {imports : Imports}
    {functions : List (String × String × HostFunction)} {e : Failure}
    (hrefused : defineAll imports functions = .error e) : e.kind = .construction := by
  induction functions generalizing imports with
  | nil => cases hrefused
  | cons f rest ih =>
    obtain ⟨group, name, function⟩ := f
    rw [defineAll, Namespace.define] at hrefused
    by_cases hthere : imports.contains group name
    · rw [if_pos hthere] at hrefused
      cases hrefused
      rfl
    · rw [if_neg hthere] at hrefused
      exact ih hrefused

/-- Options that are refused are a failure of construction. -/
theorem PoolOptions.validate_kind {o : PoolOptions} {e : Failure}
    (hrefused : o.validate = .error e) : e.kind = .construction := by
  -- All refusals before building are of one kind, whichever comes first.
  have hstands := (o.validate_agrees.fails e).mp hrefused
  unfold unusable? at hstands
  split at hstands
  · cases hstands
    rfl
  split at hstands
  · cases hstands
    rfl
  split at hstands
  · cases hstands
    rfl
  split at hstands
  · cases hstands
    rfl
  · cases hstands

/-- So are bytes that are no module. -/
theorem Engine.compile_kind {engine : Engine} {data : List UInt8} {j j' : Journal} {e : Failure}
    (hrefused : engine.compile data j = (.error e, j')) : e.kind = .construction := by
  unfold compile at hrefused
  split at hrefused
  · split at hrefused
    · cases hrefused
      rfl
    · split at hrefused <;> cases hrefused
      rfl
  · split at hrefused <;> cases hrefused
    rfl

/-- So is a module of which no instance can be made. -/
theorem GuestModule.instantiate_kind {m : GuestModule} {imports : Imports} {limit : Nat}
    {h h' : HostState} {e : Failure} (hrefused : m.instantiate imports limit h = (.error e, h')) :
    e.kind = .construction := by
  have hstarted (failure : Failure) : (startFailure failure).kind = .construction := by
    unfold startFailure
    split <;> rfl
  -- A script fails on a missing import; a module on its creation, or on its start function.
  unfold instantiate at hrefused
  split at hrefused
  · split at hrefused <;> cases hrefused
    rfl
  · dsimp only at hrefused
    split at hrefused
    · cases hrefused
      rfl
    · split at hrefused
      · cases hrefused
      · split at hrefused <;> cases hrefused
        · exact hstarted _
        · rfl
        · rfl
        · rfl
        · rfl

/-- So is an instance that does not export the memory asked for. -/
theorem GuestInstance.memory_kind {g : GuestInstance} {name : String} {e : Failure}
    (hrefused : g.memory name = .error e) : e.kind = .construction := by
  unfold memory at hrefused
  split at hrefused <;> cases hrefused
  rfl

/-- The exports of a list are there, or one is not. -/
theorem GuestInstance.forM_function (g : GuestInstance) (names : List String) :
    (names.forM g.function = .ok () ∧ ∀ name ∈ names, g.hasFunction name = true) ∨
      (¬ ∀ name ∈ names, g.hasFunction name = true) ∧
        ∃ e, names.forM g.function = .error e ∧ e.kind = .notImplemented := by
  induction names with
  | nil => exact .inl ⟨rfl, nofun⟩
  | cons name rest ih =>
    by_cases hthere : g.hasFunction name
    · have hfirst : (name :: rest).forM g.function = rest.forM g.function := by
        show (g.function name).bind (fun _ => rest.forM g.function) = _
        rw [function, if_pos hthere]
        rfl
      rw [hfirst]
      -- The first name is there, so what holds of the others holds of all.
      refine ih.imp (And.imp_right fun hall => ?_) (And.imp_left fun hmissing hall => ?_)
      · exact List.forall_mem_cons.mpr ⟨hthere, hall⟩
      · exact hmissing (List.forall_mem_cons.mp hall).2
    · refine .inr
        ⟨fun hall => hthere (hall name List.mem_cons_self), ⟨.exportMissing name, []⟩, ?_, rfl⟩
      show (g.function name).bind (fun _ => rest.forM g.function) = _
      rw [function, if_neg hthere]
      rfl

namespace Building

variable {slot limit pool : Nat} {imports imports' : Imports} {h h' : HostState} {e : Failure}
  {capabilities before after : List Capability} {custom : CustomCapability} {g : GuestInstance}
  {module : GuestModule} {o : PoolOptions}

/-- A second step fails by itself, or is never taken. -/
theorem andThen_eq_error {α β σ : Type} {r : Outcome α × σ} {next : α → σ → Outcome β × σ} :
    (andThen r next).1 = .error e ↔
      r.1 = .error e ∨ ∃ a s, r = (.ok a, s) ∧ (next a s).1 = .error e := by
  obtain ⟨failure | a, s⟩ := r
  · refine ⟨fun hfails => .inl (congrArg Except.error (Except.error.inj hfails)), ?_⟩
    rintro (hsame | ⟨a, s', hsame, -⟩)
    · exact congrArg Except.error (Except.error.inj hsame)
    · cases hsame
  · refine ⟨fun hfails => .inr ⟨a, s, rfl, hfails⟩, ?_⟩
    rintro (hsame | ⟨a', s', hsame, hfails⟩)
    · cases hsame
    · cases hsame
      exact hfails

/-- It succeeds only behind a first one that did. -/
theorem andThen_eq_ok {α β σ : Type} {r : Outcome α × σ} {next : α → σ → Outcome β × σ} {b : β} :
    (andThen r next).1 = .ok b ↔ ∃ a s, r = (.ok a, s) ∧ (next a s).1 = .ok b := by
  obtain ⟨failure | a, s⟩ := r
  · refine ⟨nofun, ?_⟩
    rintro ⟨a, s', hsame, -⟩
    cases hsame
  · refine ⟨fun hok => ⟨a, s, rfl, hok⟩, ?_⟩
    rintro ⟨a', s', hsame, hok⟩
    cases hsame
    exact hok

/-! ## Before there is a guest -/

/-- Capabilities export one after another, each into what those before it have left. -/
theorem exportAll_append : exportAll slot (before ++ after) imports h =
    andThen (exportAll slot before imports h) fun imports h => exportAll slot after imports h := by
  induction before generalizing imports h with
  | nil => rfl
  | cons c rest ih =>
    rw [List.cons_append, exportAll, exportAll]
    obtain ⟨failure | _, h₁⟩ := create slot c h
    · rfl
    · dsimp only [andThen]
      obtain ⟨failure | imports₁, h₂⟩ := exportFunctions slot c imports h₁
      · rfl
      · exact ih

/-- A custom capability is created unless its hook reports a failure. -/
theorem create_custom : (create slot (.custom custom) h).1 =
    failing (custom.failCreate.report slot) := rfl

/-- Its functions are defined before its hook for them reports. -/
theorem exportFunctions_custom : (exportFunctions slot (.custom custom) imports h).1 =
    (Capability.defineAll imports custom.functions).bind fun imports =>
      (failing (custom.failExport.report slot)).map fun _ => imports := rfl

theorem failing_eq_error {failure : Option Failure} :
    failing failure = .error e ↔ failure = some e := by
  cases failure with
  | none => exact ⟨nofun, nofun⟩
  | some failure => exact ⟨fun hsame => congrArg some (Except.error.inj hsame),
      fun hsame => congrArg Except.error (Option.some.inj hsame)⟩

theorem failing_eq_ok {failure : Option Failure} : failing failure = .ok () ↔ failure = none := by
  cases failure with
  | none => exact ⟨fun _ => rfl, fun _ => rfl⟩
  | some failure => exact ⟨nofun, nofun⟩

/-- One capability that does not get through is refused by the library, or its hooks fail. -/
theorem exportOne_error {c : Capability}
    (hfound : (andThen (create slot c h) fun _ h => exportFunctions slot c imports h).1 =
      .error e) :
    e.kind = .construction ∨ ∃ custom, c = .custom custom ∧ custom.StopsExport slot imports e := by
  cases c with
  | custom custom =>
    rcases andThen_eq_error.mp hfound with hcreated | ⟨_, h₁, hcreated, hexported⟩
    · exact .inr ⟨custom, rfl, .inl (failing_eq_error.mp hcreated)⟩
    -- Three parties can refuse: the first hook, the definitions, and the hook after them.
    · rw [exportFunctions_custom] at hexported
      cases hdefined : Capability.defineAll imports custom.functions with
      | error failure =>
        rw [hdefined] at hexported
        obtain rfl := Except.error.inj hexported
        exact .inl (Capability.defineAll_kind hdefined)
      | ok all =>
        rw [hdefined] at hexported
        have hnone : custom.failCreate.report slot = none :=
          failing_eq_ok.mp (create_custom.symm.trans (congrArg Prod.fst hcreated))
        cases hreported : custom.failExport.report slot with
        | none =>
          rw [hreported] at hexported
          cases hexported
        | some failure =>
          rw [hreported] at hexported
          obtain rfl := Except.error.inj hexported
          exact .inr ⟨custom, rfl, .inr ⟨hnone, ⟨all, hdefined⟩, hreported⟩⟩
  | _ => exact .inl (Capability.defineAll_kind hfound)

/-- A capability exports as soon as it is created, before the next one is. -/
theorem exportAll_cons {c : Capability} : exportAll slot (c :: after) imports h =
    andThen (andThen (create slot c h) fun _ h => exportFunctions slot c imports h)
      fun imports h => exportAll slot after imports h := by
  rw [exportAll]
  obtain ⟨failure | _, h₁⟩ := create slot c h <;> rfl

/-- What ends the definition of functions is refused by the library, or comes from the hooks of
the first custom capability whose hooks fail. -/
theorem exportAll_error (hfound : (exportAll slot capabilities imports h).1 = .error e) :
    e.kind = .construction ∨ ∃ before custom after imports' h',
      capabilities = before ++ .custom custom :: after ∧
        exportAll slot before imports h = (.ok imports', h') ∧
        custom.StopsExport slot imports' e := by
  induction capabilities generalizing imports h with
  | nil => cases hfound
  | cons c rest ih =>
    rw [exportAll_cons] at hfound
    rcases andThen_eq_error.mp hfound with hfirst | ⟨imports₁, h₁, hfirst, hothers⟩
    · rcases exportOne_error hfirst with hkind | ⟨custom, rfl, hstops⟩
      · exact .inl hkind
      · exact .inr ⟨[], custom, rest, imports, h, rfl, rfl, hstops⟩
    · rcases ih hothers with hkind | ⟨before, custom, after, imports', h', rfl, hthrough, hstops⟩
      · exact .inl hkind
      · refine .inr ⟨c :: before, custom, after, imports', h', rfl, ?_, hstops⟩
        rw [exportAll_cons, hfirst]
        exact hthrough

/-- A custom capability whose hooks fail ends it, if those before it get through. -/
theorem exportAll_stopped (hthrough : exportAll slot before imports h = (.ok imports', h'))
    (hstops : custom.StopsExport slot imports' e) :
    (exportAll slot (before ++ .custom custom :: after) imports h).1 = .error e := by
  rw [exportAll_append, hthrough]
  show (exportAll slot (.custom custom :: after) imports' h').1 = .error e
  rw [exportAll_cons]
  refine andThen_of_error ?_ _
  rcases hstops with hcreated | ⟨hcreated, ⟨all, hdefined⟩, hexported⟩
  · exact andThen_of_error (failing_eq_error.mpr hcreated) _
  · rw [andThen_of_ok (failing_eq_ok.mpr hcreated), exportFunctions_custom, hdefined, hexported]
    rfl

/-- Where all functions are defined no hook has failed. -/
theorem exportAll_hooks (hfound : (exportAll slot capabilities imports h).1 = .ok imports')
    (hlisted : .custom custom ∈ capabilities) :
    custom.failCreate.report slot = none ∧ custom.failExport.report slot = none := by
  -- All before it succeeded, or it would not have been reached; and it succeeded itself.
  obtain ⟨before, after, rfl⟩ := List.append_of_mem hlisted
  rw [exportAll_append] at hfound
  obtain ⟨imports₁, h₁, -, hfound⟩ := andThen_eq_ok.mp hfound
  rw [exportAll_cons] at hfound
  obtain ⟨imports₂, h₂, hfound, -⟩ := andThen_eq_ok.mp hfound
  obtain ⟨_, h₃, hcreated, hexported⟩ := andThen_eq_ok.mp (congrArg Prod.fst hfound)
  rw [exportFunctions_custom] at hexported
  refine ⟨failing_eq_ok.mp (create_custom.symm.trans (congrArg Prod.fst hcreated)), ?_⟩
  cases hdefined : Capability.defineAll imports₁ custom.functions with
  | error failure =>
    rw [hdefined] at hexported
    cases hexported
  | ok all =>
    rw [hdefined] at hexported
    cases hreported : custom.failExport.report slot with
    | none => rfl
    | some failure =>
      rw [hreported] at hexported
      cases hexported

/-! ## When there is a guest -/

/-- Capabilities bind one after another. -/
theorem bindAll_append : bindAll slot (before ++ after) g h =
    andThen (bindAll slot before g h) fun _ h => bindAll slot after g h := by
  induction before generalizing h with
  | nil => rfl
  | cons c rest ih =>
    rw [List.cons_append, bindAll, bindAll]
    obtain ⟨failure | _, h₁⟩ := bind slot c g h
    · rfl
    · exact ih

/-- A custom capability looks for its exports before its hook for them reports. -/
theorem bind_custom : (bind slot (.custom custom) g h).1 =
    (custom.bind.forM g.function).bind fun _ => failing (custom.failBind.report slot) := rfl

/-- What a capability that does not bind is told of is a failure of construction, or what its hook
reports. -/
theorem bindFailure_cases {c : Capability} {failure : Failure}
    (hfound : (bind slot c g h).1 = .error failure) :
    (bindFailure c failure).kind = .construction ∨
      ∃ custom, c = .custom custom ∧ custom.StopsBinding slot g failure ∧
        bindFailure c failure = failure := by
  have htold {failure : Failure} (hmissing : failure.kind = .notImplemented) :
      (bindFailure c failure).kind = .construction := by
    unfold bindFailure
    rw [if_pos hmissing]
    rfl
  cases c with
  | handlers =>
    refine .inl (htold ?_)
    unfold bind GuestInstance.function at hfound
    dsimp only at hfound
    by_cases hthere : g.hasFunction Capability.handleEventExport
    · rw [if_pos hthere] at hfound
      cases hfound
    · rw [if_neg hthere] at hfound
      obtain rfl := Except.error.inj hfound
      rfl
  | custom custom =>
    rw [bind_custom] at hfound
    rcases g.forM_function custom.bind with ⟨hok, hthere⟩ | ⟨-, e, hmissed, hkind⟩
    · rw [hok] at hfound
      have hreported : custom.failBind.report slot = some failure := failing_eq_error.mp hfound
      -- a hook that reports a missing export is taken for one that found it missing
      by_cases hmissing : failure.kind = .notImplemented
      · exact .inl (htold hmissing)
      · exact .inr ⟨custom, rfl, ⟨hthere, hreported, hmissing⟩, if_neg hmissing⟩
    · rw [hmissed] at hfound
      obtain rfl := Except.error.inj hfound
      exact .inl (htold hkind)
  | _ => cases hfound

/-- If binding fails for another reason than construction, it was stopped at a custom capability
behind others that were bound. -/
theorem bindAll_error (hfound : (bindAll slot capabilities g h).1 = .error e) :
    e.kind = .construction ∨ ∃ before custom after h',
      capabilities = before ++ .custom custom :: after ∧
        bindAll slot before g h = (.ok (), h') ∧ custom.StopsBinding slot g e := by
  induction capabilities generalizing h with
  | nil => cases hfound
  | cons c rest ih =>
    -- The first capability that fails decides, and what came before it went through.
    unfold bindAll at hfound
    split at hfound
    · next h₁ hfirst =>
      rcases ih hfound with hkind | ⟨before, custom, after, h', rfl, hthrough, hstops⟩
      · exact .inl hkind
      · refine .inr ⟨c :: before, custom, after, h', rfl, ?_, hstops⟩
        rw [bindAll, hfirst]
        exact hthrough
    · next failure h₁ hfirst =>
      obtain rfl := Except.error.inj hfound
      rcases bindFailure_cases (congrArg Prod.fst hfirst) with hkind | ⟨custom, rfl, hstops, hsame⟩
      · exact .inl hkind
      · rw [hsame]
        exact .inr ⟨[], custom, rest, h, rfl, rfl, hstops⟩

/-- Where the ones before are bound, a hook that stops the binding is what is told of. -/
theorem bindAll_stopped (hthrough : bindAll slot before g h = (.ok (), h'))
    (hstops : custom.StopsBinding slot g e) :
    (bindAll slot (before ++ .custom custom :: after) g h).1 = .error e := by
  obtain ⟨hthere, hreported, htold⟩ := hstops
  have hfailed : (bind slot (.custom custom) g h').1 = .error e := by
    rw [bind_custom]
    rcases g.forM_function custom.bind with ⟨hok, -⟩ | ⟨hmissing, -⟩
    · rw [hok]
      -- Binding looks for the exports before it asks the hook.
      exact failing_eq_error.mpr hreported
    · exact absurd hthere hmissing
  rw [bindAll_append, hthrough]
  show (bindAll slot (.custom custom :: after) g h').1 = .error e
  unfold bindAll
  rcases hfound : bind slot (.custom custom) g h' with ⟨result, h₁⟩
  rw [hfound] at hfailed
  obtain rfl : result = .error e := hfailed
  exact congrArg Except.error (if_neg htold)

/-- Where all are bound, no hook has reported anything. -/
theorem bindAll_hooks (hfound : (bindAll slot capabilities g h).1 = .ok ())
    (hlisted : .custom custom ∈ capabilities) : custom.failBind.report slot = none := by
  obtain ⟨before, after, rfl⟩ := List.append_of_mem hlisted
  rw [bindAll_append] at hfound
  obtain ⟨_, h₁, -, hfound⟩ := andThen_eq_ok.mp hfound
  unfold bindAll at hfound
  split at hfound
  · next h₂ hbound =>
    have hok : (bind slot (.custom custom) g h₁).1 = .ok () := congrArg Prod.fst hbound
    rw [bind_custom] at hok
    rcases g.forM_function custom.bind with ⟨hall, -⟩ | ⟨-, e, hmissed, -⟩
    · rw [hall] at hok
      exact failing_eq_ok.mp hok
    · rw [hmissed] at hok
      cases hok
  · cases hfound

/-! ## A context -/

/-- A hook of a custom capability ends the building of a context, and all that comes before it is
done. -/
inductive Stopped (slot : Nat) (module : GuestModule) (limit : Nat) (o : PoolOptions)
    (h : HostState) : Failure → Prop where
  /-- It runs before there is a guest. -/
  | exporting {before after : List Capability} {custom : CustomCapability} {imports : Imports}
      {h' : HostState} {e : Failure}
      (hlisted : o.capabilities = before ++ .custom custom :: after)
      (hthrough : exportAll slot before .empty h = (.ok imports, h'))
      (hstops : custom.StopsExport slot imports e) : Stopped slot module limit o h e
  /-- It binds exports of the guest. -/
  | binding {before after : List Capability} {custom : CustomCapability} {imports : Imports}
      {g : GuestInstance} {memory : Memory} {h₁ h₂ h₃ : HostState} {e : Failure}
      (hlisted : o.capabilities = before ++ .custom custom :: after)
      (hexported : exportAll slot o.capabilities .empty h = (.ok imports, h₁))
      (hmade : module.instantiate imports limit h₁ = (.ok g, h₂))
      (hfound : g.memory o.memoryExport = .ok memory)
      (hthrough : bindAll slot before g h₂ = (.ok (), h₃))
      (hstops : custom.StopsBinding slot g e) : Stopped slot module limit o h e

/-- A building that is stopped is stopped by a capability that is not willing. -/
theorem Stopped.unwilling (hstopped : Stopped slot module limit o h e) :
    ∃ custom, .custom custom ∈ o.capabilities ∧ ¬ custom.Willing slot := by
  cases hstopped with
  | @exporting before after custom imports h' _ hlisted hthrough hstops =>
    refine ⟨custom, ?_, fun hwilling => hwilling.no_export hstops⟩
    rw [hlisted]
    exact List.mem_append_right before List.mem_cons_self
  | @binding before after custom imports g memory h₁ h₂ h₃ _ hlisted hexported hmade hfound hthrough
      hstops =>
    refine ⟨custom, ?_, fun hwilling => hwilling.no_binding hstops⟩
    rw [hlisted]
    exact List.mem_append_right before List.mem_cons_self

/-- A context is not built for a reason of construction, or because a hook fails. -/
theorem guest_error (hfound : (guest pool slot module limit o h).1 = .error e) :
    e.kind = .construction ∨ Stopped slot module limit o h e := by
  unfold guest at hfound
  -- exports, instance, memory and bindings, in this order
  rcases andThen_eq_error.mp hfound with hexported | ⟨imports, h₁, hexported, hfound⟩
  · rcases exportAll_error hexported with
      hkind | ⟨before, custom, after, i, h', hlisted, hthrough, hstops⟩
    · exact .inl hkind
    · exact .inr (.exporting hlisted hthrough hstops)
  rcases andThen_eq_error.mp hfound with hrefused | ⟨g, h₂, hmade, hfound⟩
  · exact .inl (GuestModule.instantiate_kind (Prod.ext hrefused rfl))
  rcases andThen_eq_error.mp hfound with hmissing | ⟨_, h₃, hthere, hfound⟩
  · cases hmemory : g.memory o.memoryExport with
    | ok m =>
      rw [hmemory] at hmissing
      cases hmissing
    | error failure =>
      rw [hmemory] at hmissing
      obtain rfl := Except.error.inj hmissing
      exact .inl (GuestInstance.memory_kind hmemory)
  rcases andThen_eq_error.mp hfound with hbound | ⟨_, h₄, -, hlast⟩
  · rcases bindAll_error hbound with hkind | ⟨before, custom, after, h', hlisted, hthrough, hstops⟩
    · exact .inl hkind
    · obtain ⟨hok, rfl⟩ := Prod.mk.inj hthere
      cases hmemory : g.memory o.memoryExport with
      | ok m => exact .inr (.binding hlisted hexported hmade hmemory hthrough hstops)
      | error failure =>
        rw [hmemory] at hok
        cases hok
  · cases hlast

/-- A hook that fails ends the building of a context with what it reports. -/
theorem Stopped.guest (hstopped : Stopped slot module limit o h e) (pool : Nat) :
    (guest pool slot module limit o h).1 = .error e := by
  unfold Building.guest
  -- Each phase is reached because the phases before it went through.
  cases hstopped with
  | exporting hlisted hthrough hstops =>
    rw [hlisted]
    exact andThen_of_error (exportAll_stopped hthrough hstops) _
  | binding hlisted hexported hmade hfound hthrough hstops =>
    rw [hexported]
    show (andThen (module.instantiate _ _ _) _).1 = _
    rw [hmade]
    show (andThen ((GuestInstance.memory _ _).map _, _) _).1 = _
    rw [hfound]
    show (andThen (bindAll slot _ _ _) _).1 = _
    rw [hlisted]
    exact andThen_of_error (bindAll_stopped hthrough hstops) _

/-- For a reason that is none of construction a context is not built just when a hook fails. -/
theorem guest_stopped_iff (hother : e.kind ≠ .construction) :
    (guest pool slot module limit o h).1 = .error e ↔ Stopped slot module limit o h e :=
  ⟨fun hfound => (guest_error hfound).resolve_left hother, fun hstopped => hstopped.guest pool⟩

/-- Where a context is built no hook has failed. -/
theorem guest_willing (hfound : (guest pool slot module limit o h).1 = .ok g)
    (hlisted : .custom custom ∈ o.capabilities) : custom.Willing slot := by
  unfold guest at hfound
  obtain ⟨imports, h₁, hexported, hfound⟩ := andThen_eq_ok.mp hfound
  obtain ⟨g', h₂, -, hfound⟩ := andThen_eq_ok.mp hfound
  obtain ⟨_, h₃, -, hfound⟩ := andThen_eq_ok.mp hfound
  obtain ⟨_, h₄, hbound, -⟩ := andThen_eq_ok.mp hfound
  obtain ⟨hcreated, hdefined⟩ := exportAll_hooks (congrArg Prod.fst hexported) hlisted
  exact ⟨hcreated, hdefined, bindAll_hooks (congrArg Prod.fst hbound) hlisted⟩

end Building

theorem Outcome.map_eq_error {α β : Type} {f : α → β} {r : Outcome α} {e : Failure} :
    r.map f = .error e ↔ r = .error e := by
  cases r with
  | error failure => exact ⟨fun hsame => congrArg Except.error (Except.error.inj hsame),
      fun hsame => congrArg Except.error (Except.error.inj hsame)⟩
  | ok a => exact ⟨nofun, nofun⟩

theorem Outcome.map_eq_ok {α β : Type} {f : α → β} {r : Outcome α} {b : β} :
    r.map f = .ok b ↔ ∃ a, r = .ok a ∧ f a = b := by
  cases r with
  | error failure => exact ⟨nofun, nofun⟩
  | ok a => simp [Except.map]

namespace World

variable {w w' : World} {o : PoolOptions} {module : GuestModule} {e : Failure}

/-- The contexts from a slot on are the first of them and then the others. -/
theorem buildContexts_succ {id count slot : Nat} {g : GuestInstance} {h : HostState}
    (hmade : Building.guest id slot module w.engine.memoryLimit o
      (Building.freshHost slot w.services w.journal) = (.ok g, h)) :
    let others := buildContexts id module o count (slot + 1)
      { w with services := h.services, journal := h.journal, nextScope := w.nextScope + 1 }
    buildContexts id module o (count + 1) slot w =
      (others.1.map (⟨id, slot, o.capabilities, o.timeout, g, h.handles, w.nextScope, none⟩ :: ·),
        others.2) := by
  intro others
  rw [buildContexts, hmade]
  rfl

/-- Contexts are not all built just when one of them is not, with those of the slots before it
built. -/
theorem buildContexts_eq_error {id count slot : Nat} :
    (buildContexts id module o count slot w).1 = .error e ↔
      ∃ k < count, ∃ contexts w', buildContexts id module o k slot w = (.ok contexts, w') ∧
        (Building.guest id (slot + k) module w.engine.memoryLimit o
          (Building.freshHost (slot + k) w'.services w'.journal)).1 = .error e := by
  induction count generalizing slot w with
  | zero => exact ⟨nofun, nofun⟩
  | succ count ih =>
    rcases hmade : Building.guest id slot module w.engine.memoryLimit o
      (Building.freshHost slot w.services w.journal) with ⟨failure | g, h⟩
    -- The first slot fails whatever the number of slots.
    · have hfirst (n : Nat) : (buildContexts id module o (n + 1) slot w).1 = .error failure := by
        rw [buildContexts, hmade]
      rw [hfirst]
      constructor
      · intro hsame
        refine ⟨0, Nat.succ_pos count, [], w, rfl, ?_⟩
        rw [Nat.add_zero, hmade]
        exact congrArg Except.error (Except.error.inj hsame)
      · rintro ⟨_ | k, -, contexts, w', hbuilt, hrefused⟩
        · obtain ⟨-, rfl⟩ := Prod.mk.inj hbuilt
          rw [Nat.add_zero, hmade] at hrefused
          exact congrArg Except.error (Except.error.inj hrefused)
        · cases (hfirst k).symm.trans (congrArg Prod.fst hbuilt)
    -- The first slot succeeds: a failure at slot k + 1 is one at slot k of the slots after it.
    · rw [buildContexts_succ hmade, Outcome.map_eq_error, ih]
      constructor
      · rintro ⟨k, hless, contexts, w', hbuilt, hrefused⟩
        have hmore : buildContexts id module o (k + 1) slot w = _ := buildContexts_succ hmade
        rw [hbuilt] at hmore
        refine ⟨k + 1, Nat.succ_lt_succ hless, _, w', hmore, ?_⟩
        rwa [← Nat.succ_add_eq_add_succ]
      · rintro ⟨_ | k, hless, contexts, w', hbuilt, hrefused⟩
        · obtain ⟨-, rfl⟩ := Prod.mk.inj hbuilt
          rw [Nat.add_zero, hmade] at hrefused
          cases hrefused
        · obtain ⟨hok, rfl⟩ := Prod.mk.inj ((buildContexts_succ hmade).symm.trans hbuilt)
          obtain ⟨others, hothers, -⟩ := Outcome.map_eq_ok.mp hok
          refine ⟨k, Nat.lt_of_succ_lt_succ hless, others, _, Prod.ext hothers rfl, ?_⟩
          rwa [← Nat.succ_add_eq_add_succ] at hrefused

/-- A pool is not made for what is wrong with its options, with where it is made, with the module or
with the first of its contexts that is not built. -/
theorem openPool_eq_error {hosted : Bool} : (w.openPool o hosted).1 = .error e ↔
    o.validate = .error e ∨ o.validate = .ok () ∧
      (hosted = false ∧ e = ⟨.configuration "runtime" "pool must be created inside a tokio runtime",
          [noRuntime]⟩ ∨
        hosted = true ∧ ((w.engine.compile o.module w.journal).1 = .error e ∨
          ∃ module journal, w.engine.compile o.module w.journal = (.ok module, journal) ∧
            (buildContexts w.nextPool module o o.concurrency 0
              { w with journal, nextPool := w.nextPool + 1 }).1 = .error e)) := by
  unfold openPool
  cases o.validate with
  | error failure => simp
  | ok valid =>
    cases hosted with
    | false => simp [eq_comm]
    | true =>
      simp only [Bool.not_true, Bool.false_eq_true, if_false]
      rcases w.engine.compile o.module w.journal with ⟨failure | module, journal⟩
      · simp
      · dsimp only
        rcases hbuilt : buildContexts w.nextPool module o o.concurrency 0
          { w with journal, nextPool := w.nextPool + 1 } with ⟨failure | contexts, w₁⟩
        · simp [and_assoc, hbuilt]
        · simp [and_assoc, hbuilt]

/-- A hook that runs for a slot ends the making of a pool: the module is compiled, the contexts of
the slots before are built, and all that comes before the hook is done for its own. -/
def StoppedAt (w : World) (o : PoolOptions) (slot : Nat) (e : Failure) : Prop :=
  ∃ module journal contexts w', w.engine.compile o.module w.journal = (.ok module, journal) ∧
    buildContexts w.nextPool module o slot 0 { w with journal, nextPool := w.nextPool + 1 } =
      (.ok contexts, w') ∧
    Building.Stopped slot module w.engine.memoryLimit o
      (Building.freshHost slot w'.services w'.journal) e

/-- Hooks that do not fail for the first slot fail for none, if they report the same for all. -/
theorem StoppedAt.first {slot : Nat} (hstopped : w.StoppedAt o slot e)
    (hsteady : ∀ custom, .custom custom ∈ o.capabilities → custom.Steady) : slot = 0 := by
  obtain ⟨module, journal, contexts, w', -, hbuilt, hfails⟩ := hstopped
  cases slot with
  | zero => rfl
  | succ k =>
    obtain ⟨custom, hlisted, hunwilling⟩ := hfails.unwilling
    rcases hmade : Building.guest w.nextPool 0 module w.engine.memoryLimit o
      (Building.freshHost 0 w.services journal) with ⟨failure | g, h⟩
    · rw [buildContexts, hmade] at hbuilt
      cases hbuilt
    · have hwilling : custom.Willing 0 := Building.guest_willing (congrArg Prod.fst hmade) hlisted
      exact absurd ((hsteady custom hlisted).willing hwilling (k + 1)) hunwilling

/-- Whatever engine there is, whatever module, options and capabilities are given: a pool is not
made for a reason that is none of construction just when the options are usable, there is something
to run its calls, the module is compiled, and a hook of a custom capability fails at some context
for that reason, with all that comes before it done. This is the first context if the hooks report
the same for every slot. A hook that binds exports and reports that one is missing does not count,
as does one that finds that one is missing. -/
theorem openPool_stopped_iff (w : World) (o : PoolOptions) (hosted : Bool) (e : Failure) :
    ((w.openPool o hosted).1 = .error e ∧ e.kind ≠ .construction ↔
      o.validate = .ok () ∧ hosted = true ∧
        (∃ slot < o.concurrency, w.StoppedAt o slot e) ∧ e.kind ≠ .construction) ∧
    ∀ slot, w.StoppedAt o slot e →
      (∀ custom, .custom custom ∈ o.capabilities → custom.Steady) → slot = 0 := by
  refine ⟨?_, fun slot hstopped hsteady => hstopped.first hsteady⟩
  rw [openPool_eq_error]
  constructor
  -- Only building can fail with a kind of its own, and it does so at the first slot that stops.
  · rintro ⟨hinvalid | ⟨hvalid, ⟨-, rfl⟩ | ⟨hhosted, hrefused | ⟨module, journal, hcompiled,
      hfound⟩⟩⟩, hother⟩
    · exact absurd (PoolOptions.validate_kind hinvalid) hother
    · exact absurd rfl hother
    · exact absurd (Engine.compile_kind (Prod.ext hrefused rfl)) hother
    · obtain ⟨slot, hless, contexts, w', hbuilt, hfails⟩ := buildContexts_eq_error.mp hfound
      rw [Nat.zero_add] at hfails
      have hstopped := (Building.guest_stopped_iff hother).mp hfails
      exact ⟨hvalid, hhosted, ⟨slot, hless, module, journal, contexts, w', hcompiled, hbuilt,
        hstopped⟩, hother⟩
  · rintro ⟨hvalid, hhosted, ⟨slot, hless, module, journal, contexts, w', hcompiled, hbuilt,
      hstopped⟩, hother⟩
    have hfails := hstopped.guest w.nextPool
    rw [← Nat.zero_add slot] at hfails
    have hfound := buildContexts_eq_error.mpr ⟨slot, hless, contexts, w', hbuilt, hfails⟩
    exact ⟨.inr ⟨hvalid, .inr ⟨hhosted, .inr ⟨module, journal, hcompiled, hfound⟩⟩⟩, hother⟩

-- The hook that creates a capability may fail at the last of three contexts only.
example :
    let late : Capability := .custom ⟨"clock", [], false, ⟨none, [(2, some ⟨.cancelled, []⟩)]⟩,
      .always none, [], .always none⟩
    let w := ofEngine (.scripts [listener]) default
    (w.openPool (listenerOptions [.interop, late]) true).1 = .error ⟨.cancelled, []⟩ := rfl

/-- A capability whose creation fails as if its caller had given up. -/
def impatient : Capability :=
  .custom ⟨"clock", [], false, .always (some ⟨.cancelled, []⟩), .always none, [], .always none⟩

/-- So not every valid pool that is not made fails for a reason of construction: here the one who
makes it is told that a fresh context may get past it. -/
theorem openPool_not_construction :
    let w := ofEngine (.scripts [listener]) default
    let o := listenerOptions [.interop, impatient]
    o.validate = .ok () ∧ (w.openPool o true).1 = .error ⟨.cancelled, []⟩ ∧
      (⟨.cancelled, []⟩ : Failure).kind ≠ .construction ∧
      (⟨.cancelled, []⟩ : Failure).isRetriable = true := by
  intro w o
  exact ⟨rfl, rfl, nofun, rfl⟩

end World
end SandboxPool
