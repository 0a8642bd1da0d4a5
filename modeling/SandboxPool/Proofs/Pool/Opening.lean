import SandboxPool.Proofs.Guest.Law
import SandboxPool.Proofs.Pool.Scene

/-!
# Pools as they are made

`World.openPool` makes a pool with all its contexts, or makes none. However many pools are made
one after another, nobody has used what comes of it: `World.Unused` holds at the beginning, and
every call of `openPool` keeps it. So what holds of all scenes holds of pools as they are made.
Contexts are built without buffers, unless a start function of their module uses a host function to
store some.
-/

namespace SandboxPool

/-! ## Building a context -/

namespace Building

/-- What goes on leaves the handles alone if each part of it does. -/
theorem andThen_handles {α β : Type} {h : HostState} {r : Outcome α × HostState}
    {next : α → HostState → Outcome β × HostState} (hfirst : r.2.handles = h.handles)
    (hrest : ∀ a h, r = (.ok a, h) → (next a h).2.handles = h.handles) :
    (andThen r next).2.handles = h.handles := by
  obtain ⟨e | a, h'⟩ := r
  · exact hfirst
  · exact (hrest a h' rfl).trans hfirst

theorem create_handles (slot : Nat) (c : Capability) (h : HostState) :
    (create slot c h).2.handles = h.handles := by
  cases c with
  | custom custom =>
    unfold create
    dsimp only
    split <;> rfl
  | _ => rfl

theorem exportFunctions_handles (slot : Nat) (c : Capability) (imports : Imports)
    (h : HostState) : (exportFunctions slot c imports h).2.handles = h.handles := by
  cases c <;> rfl

theorem exportAll_handles (slot : Nat) (capabilities : List Capability) (imports : Imports)
    (h : HostState) : (exportAll slot capabilities imports h).2.handles = h.handles := by
  induction capabilities generalizing imports h with
  | nil => rfl
  | cons c rest ih =>
    refine andThen_handles (create_handles slot c h) fun _ h _ => ?_
    exact andThen_handles (exportFunctions_handles slot c imports h) fun imports h _ => ih imports h

theorem bindAll_handles (slot : Nat) (capabilities : List Capability) (g : GuestInstance)
    (h : HostState) : (bindAll slot capabilities g h).2.handles = h.handles := by
  induction capabilities generalizing h with
  | nil => rfl
  | cons c rest ih =>
    -- Binding looks exports up and touches no table.
    have hone : (bind slot c g h).2.handles = h.handles := by
      cases c with
      | handlers =>
        unfold bind
        dsimp only
        split <;> rfl
      | _ => rfl
    unfold bindAll
    split
    · next h' hfound =>
      rw [hfound] at hone
      exact (ih h').trans hone
    · next e h' hfound =>
      rw [hfound] at hone
      exact hone

/-- No host function is used while guests are built of a module, whatever the capabilities define
for it. -/
def Unaided (module : GuestModule) (limit : Nat) (o : PoolOptions) : Prop :=
  ∀ {slot : Nat} {h h' : HostState} {imports : Imports},
    exportAll slot o.capabilities .empty h = (.ok imports, h') → module.Unaided imports limit

/-- A guest is built without buffers if no host function is used meanwhile. -/
theorem guest_handles {module : GuestModule} {limit : Nat} {o : PoolOptions}
    (hunaided : Unaided module limit o) (pool slot : Nat) (h : HostState) :
    (guest pool slot module limit o h).2.handles = h.handles := by
  refine andThen_handles (exportAll_handles slot _ _ h) fun imports h hdefined => ?_
  have hmade : (module.instantiate imports limit h).2.handles = h.handles := by
    obtain ⟨journal, hsame⟩ := (hunaided hdefined).instantiate h
    rw [hsame]
  refine andThen_handles hmade fun g h _ => ?_
  refine andThen_handles rfl fun _ h _ => ?_
  exact andThen_handles (bindAll_handles slot _ g h) fun _ h _ => rfl

end Building

/-- A context that was built for a pool, and that nobody has used. -/
structure Context.Built (x : Context) (pool : Nat) (nextScope : ScopeId) (unaided : Prop) :
    Prop where
  pool : x.pool = pool
  record : x.inFlight = none
  scope : x.scope < nextScope
  empty : unaided → x.handles = .empty

namespace World

/-- Nobody has used a world yet, and the number that the next pool gets is a new one. -/
structure Unused (w : World) : Prop where
  fresh : w.Fresh
  numbered : ∀ {q : Nat} {p : Pool}, w.pools[q]? = some p → p.id < w.nextPool

theorem ofEngine_unused (engine : Engine) (services : Services) :
    (ofEngine engine services).Unused where
  fresh :=
    { pool := fun hhere => by cases hhere
      context := fun hhere => by cases hhere
      unused := fun hthere => by cases hthere
      quiet := ⟨rfl, rfl, rfl⟩ }
  numbered hhere := by cases hhere

variable {w w' : World} {id place : Nat} {module : GuestModule} {o : PoolOptions}

/-- Services, the log and the next numbers do not matter. -/
theorem Unused.renew (h : w.Unused) (services : Services) (journal : Journal)
    {nextPool : Nat} {nextScope : ScopeId} (hpools : w.nextPool ≤ nextPool)
    (hscopes : w.nextScope ≤ nextScope) :
    Unused { w with services, journal, nextPool, nextScope } where
  fresh :=
    { pool := h.fresh.pool
      context := h.fresh.context
      unused := fun hthere => by
        obtain ⟨hrecord, hscope⟩ := h.fresh.unused hthere
        exact ⟨hrecord, Nat.lt_of_lt_of_le hscope hscopes⟩
      quiet := h.fresh.quiet }
  numbered hhere := Nat.lt_of_lt_of_le (h.numbered hhere) hpools

/-- A world with one pool more, and its contexts. -/
def withPool (w : World) (id : Nat) (contexts : List Context) : World :=
  { w with
    pools := w.pools.push (.ofContexts id (List.range' w.contexts.size contexts.length))
    contexts := w.contexts ++ contexts.toArray }

theorem withPool_pools {contexts : List Context} {q : Nat} : (w.withPool id contexts).pools[q]? =
    if q = w.pools.size then
      some (.ofContexts id (List.range' w.contexts.size contexts.length))
    else w.pools[q]? :=
  Array.getElem?_push

theorem withPool_contexts {contexts : List Context} {c : ContextId} :
    (w.withPool id contexts).contexts[c]? =
      if c < w.contexts.size then w.contexts[c]? else contexts[c - w.contexts.size]? := by
  unfold withPool
  rw [Array.getElem?_append]
  simp only [List.getElem?_toArray]

/-- A pool with a number that no other has is found by it, and so are the others. -/
theorem withPool_poolIndex? (habove : ∀ {q : Nat} {p : Pool}, w.pools[q]? = some p → p.id < id)
    (contexts : List Context) (i : Nat) : (w.withPool id contexts).poolIndex? i =
      if i = id then some w.pools.size else w.poolIndex? i := by
  unfold withPool poolIndex?
  rw [Array.findIdx?_push]
  by_cases hnew : i = id
  · have hnone : w.pools.findIdx? (fun p => p.id = i) = none := by
      rw [Array.findIdx?_eq_none_iff]
      intro p hmember
      obtain ⟨q, hhere⟩ := Array.getElem?_of_mem hmember
      exact decide_eq_false (hnew ▸ Nat.ne_of_lt (habove hhere))
    rw [hnone, hnew]
    simp [Pool.ofContexts]
  · have hother : ¬ (Pool.ofContexts id (List.range' w.contexts.size contexts.length)).id = i :=
      Ne.symm hnew
    simp [hnew, hother]

/-- One pool more, with a number that no other has, and contexts of which nobody has one. -/
theorem Unused.withPool (h : w.Unused) {contexts : List Context} {unaided : Prop}
    (heach : ∀ x ∈ contexts, x.Built id w.nextScope unaided)
    (habove : ∀ {q : Nat} {p : Pool}, w.pools[q]? = some p → p.id < id) (hnext : id < w.nextPool) :
    (w.withPool id contexts).Unused where
  fresh :=
    { pool := fun {q p} hhere => by
        rw [withPool_pools] at hhere
        rw [withPool_poolIndex? habove]
        -- A pool is either the new one or one that was there, and so is a context.
        by_cases hnew : q = w.pools.size
        · rw [if_pos hnew, Option.some.injEq] at hhere
          subst hhere
          exact ⟨rfl, List.nodup_range', (if_pos rfl).trans (congrArg some hnew.symm)⟩
        · rw [if_neg hnew] at hhere
          obtain ⟨hsame, hdistinct, hindex⟩ := h.fresh.pool hhere
          exact ⟨hsame, hdistinct, by rw [if_neg (Nat.ne_of_lt (habove hhere)), hindex]⟩
      context := fun {q p c} hhere hmember => by
        rw [withPool_pools] at hhere
        rw [withPool_contexts]
        by_cases hnew : q = w.pools.size
        · rw [if_pos hnew, Option.some.injEq] at hhere
          subst hhere
          obtain ⟨hleast, hmost⟩ := List.mem_range'_1.mp hmember
          have hinside := Nat.sub_lt_left_of_lt_add hleast hmost
          rw [if_neg (Nat.not_lt.mpr hleast)]
          exact ⟨_, List.getElem?_eq_getElem hinside, (heach _ (List.getElem_mem hinside)).pool⟩
        · rw [if_neg hnew] at hhere
          obtain ⟨x, hthere, hmine⟩ := h.fresh.context hhere hmember
          rw [if_pos (Array.getElem?_eq_some_iff.mp hthere).1]
          exact ⟨x, hthere, hmine⟩
      unused := fun {c x} hthere => by
        rw [withPool_contexts] at hthere
        split at hthere
        · exact h.fresh.unused hthere
        · have hbuilt := heach x (List.mem_of_getElem? hthere)
          exact ⟨hbuilt.record, hbuilt.scope⟩
      quiet := h.fresh.quiet }
  numbered := fun {q p} hhere => by
    rw [withPool_pools] at hhere
    split at hhere
    · obtain rfl := Option.some.inj hhere
      exact hnext
    · exact h.numbered hhere

/-- Building contexts changes services, the log and the next scope only. The contexts are as many
as were asked for, and nobody has used them. -/
theorem buildContexts_cases {count slot : Nat} {built : Outcome (List Context)}
    (hfound : buildContexts id module o count slot w = (built, w')) :
    ∃ services journal nextScope, w.nextScope ≤ nextScope ∧
      w' = { w with services, journal, nextScope } ∧
      ∀ contexts, built = .ok contexts → contexts.length = count ∧
        ∀ x ∈ contexts, x.Built id nextScope (Building.Unaided module w.engine.memoryLimit o) := by
  induction count generalizing slot w w' built with
  | zero =>
    obtain ⟨rfl, rfl⟩ := Prod.mk.inj hfound
    refine ⟨_, _, _, Nat.le_refl _, rfl, ?_⟩
    rintro contexts ⟨⟩
    exact ⟨rfl, nofun⟩
  | succ count ih =>
    unfold buildContexts at hfound
    rcases hmade : Building.guest id slot module w.engine.memoryLimit o
      (Building.freshHost slot w.services w.journal) with ⟨failure | guest, h⟩ <;>
      rw [hmade] at hfound
    · obtain ⟨rfl, rfl⟩ := Prod.mk.inj hfound
      exact ⟨_, _, _, Nat.le_refl _, rfl, nofun⟩
    · dsimp only [freshScope] at hfound
      -- the first context has the scope that was next, the others have later ones
      rcases hrest : buildContexts id module o count (slot + 1)
        { w with services := h.services, journal := h.journal, nextScope := w.nextScope + 1 }
        with ⟨others, w₁⟩
      obtain ⟨services, journal, nextScope, hlater, hsame, hall⟩ := ih hrest
      rw [hrest] at hfound
      obtain ⟨rfl, rfl⟩ := Prod.mk.inj hfound
      refine ⟨services, journal, nextScope, Nat.le_of_succ_le hlater, hsame, fun contexts hok => ?_⟩
      cases others with
      | error failure => cases hok
      | ok xs =>
        obtain ⟨hlength, heach⟩ := hall xs rfl
        obtain rfl := Except.ok.inj hok
        refine ⟨congrArg Nat.succ hlength, fun x hmember => ?_⟩
        rcases List.mem_cons.mp hmember with rfl | hmember
        · refine ⟨rfl, rfl, hlater, fun hunaided => ?_⟩
          have hkept := Building.guest_handles hunaided id slot
            (Building.freshHost slot w.services w.journal)
          rw [hmade] at hkept
          exact hkept
        · exact heach x hmember

/-- No host function is used while the contexts of a pool are made. -/
def Unaided (w : World) (o : PoolOptions) : Prop :=
  ∀ {module : GuestModule}, (w.engine.compile o.module w.journal).1 = .ok module →
    Building.Unaided module w.engine.memoryLimit o

/-- No host function is used where nothing of the module runs. -/
theorem Unaided.of_startless
    (hstartless : ∀ {module : GuestModule}, (w.engine.compile o.module w.journal).1 = .ok module →
      module.Startless) : w.Unaided o :=
  fun hcompiled _ _ _ imports _ => (hstartless hcompiled).unaided imports w.engine.memoryLimit

/-- A pool is made with a new number, and with as many contexts as were asked for; or none is. -/
theorem openPool_cases (w : World) (o : PoolOptions) (hosted : Bool) :
    ∃ services journal nextPool nextScope,
      w.nextPool ≤ nextPool ∧ w.nextScope ≤ nextScope ∧
      ((∃ failure, w.openPool o hosted =
          (.error failure, { w with services, journal, nextPool, nextScope })) ∨
        ∃ (contexts : List Context) (event : Log.Event), contexts.length = o.concurrency ∧
          (∀ x ∈ contexts, x.Built w.nextPool nextScope (w.Unaided o)) ∧
          w.nextPool < nextPool ∧
          w.openPool o hosted = (.ok w.pools.size,
            ({ w with services, journal, nextPool, nextScope }.withPool w.nextPool contexts).log
              event)) := by
  -- Everything that can be refused is refused before a pool is made.
  unfold openPool
  cases o.validate with
  | error failure => exact ⟨_, _, _, _, Nat.le_refl _, Nat.le_refl _, .inl ⟨failure, rfl⟩⟩
  | ok valid =>
    cases hosted with
    | false => exact ⟨_, _, _, _, Nat.le_refl _, Nat.le_refl _, .inl ⟨_, rfl⟩⟩
    | true =>
      simp only [Bool.not_true, Bool.false_eq_true, if_false]
      rcases hcompiled : w.engine.compile o.module w.journal with ⟨failure | module, journal⟩
      · exact ⟨_, _, _, _, Nat.le_refl _, Nat.le_refl _, .inl ⟨failure, rfl⟩⟩
      · dsimp only
        rcases hfound : buildContexts w.nextPool module o o.concurrency 0
          { w with journal, nextPool := w.nextPool + 1 } with ⟨built, w₁⟩
        obtain ⟨services, journal, nextScope, hlater, rfl, hall⟩ := buildContexts_cases hfound
        cases built with
        | error failure =>
          exact ⟨_, _, _, _, Nat.le_succ _, hlater, .inl ⟨failure, rfl⟩⟩
        | ok contexts =>
          obtain ⟨hlength, heach⟩ := hall contexts rfl
          refine ⟨_, _, _, _, Nat.le_succ _, hlater,
            .inr ⟨contexts, _, hlength, fun x hmember => ?_, Nat.lt_succ_self _, rfl⟩⟩
          have hbuilt := heach x hmember
          refine ⟨hbuilt.pool, hbuilt.record, hbuilt.scope, fun hunaided => ?_⟩
          exact hbuilt.empty (hunaided (by rw [hcompiled]))

/-- Nobody has used what there is once a pool was made, or was not made. -/
theorem Unused.openPool (h : w.Unused) (o : PoolOptions) (hosted : Bool) :
    (w.openPool o hosted).2.Unused := by
  obtain ⟨services, journal, nextPool, nextScope, hpools, hscopes, hmade⟩ :=
    openPool_cases w o hosted
  have hrenewed := h.renew services journal hpools hscopes
  rcases hmade with ⟨failure, hmade⟩ | ⟨contexts, event, -, heach, hnext, hmade⟩
  · rw [hmade]
    exact hrenewed
  · rw [hmade]
    have hpushed := hrenewed.withPool heach h.numbered hnext
    exact hpushed.renew _ _ (Nat.le_refl _) (Nat.le_refl _)

/-- A pool that was made is open, with an idle context and a free permit for each caller at a
time that its options allow. -/
theorem openPool_pool {hosted : Bool} (hmade : w.openPool o hosted = (.ok place, w')) :
    ∃ p : Pool, w'.pools[place]? = some p ∧ p.capacity = o.concurrency ∧ p.closed = false ∧
      p.idle.length = o.concurrency ∧ p.permits.free = o.concurrency := by
  obtain ⟨services, journal, nextPool, nextScope, -, -, ⟨failure, hmade'⟩ | hmade'⟩ :=
    openPool_cases w o hosted
  · rw [hmade] at hmade'
    cases hmade'
  · obtain ⟨contexts, event, hlength, -, -, hmade'⟩ := hmade'
    obtain ⟨hok, rfl⟩ := Prod.mk.inj (hmade.symm.trans hmade')
    obtain rfl := Except.ok.inj hok
    have hnumbers : (List.range' w.contexts.size contexts.length).length = o.concurrency := by
      rw [List.length_range', hlength]
    exact ⟨_, withPool_pools.trans (if_pos rfl), hnumbers, rfl, hnumbers, hnumbers⟩

/-- Where a pool is made without host functions, all new contexts are without buffers. -/
theorem openPool_empty {hosted : Bool} (hunaided : w.Unaided o)
    (hempty : ∀ x ∈ w.contexts, x.handles = .empty) :
    ∀ x ∈ (w.openPool o hosted).2.contexts, x.handles = .empty := by
  obtain ⟨services, journal, nextPool, nextScope, -, -, ⟨failure, hmade⟩ | hmade⟩ :=
    openPool_cases w o hosted
  · rw [hmade]
    exact hempty
  · obtain ⟨contexts, event, -, heach, -, hmade⟩ := hmade
    rw [hmade]
    intro x hmember
    rcases Array.mem_append.mp hmember with hold | hnew
    · exact hempty x hold
    · exact (heach x (List.mem_toArray.mp hnew)).empty hunaided

/-- Worlds in which pools were made one after another, with no host function used meanwhile. -/
inductive Prepared : World → Prop where
  | ofEngine (engine : Engine) (services : Services) : Prepared (ofEngine engine services)
  | openPool {w : World} {o : PoolOptions} (hprepared : Prepared w) (hunaided : w.Unaided o)
      (hosted : Bool) : Prepared (w.openPool o hosted).2

theorem Prepared.unused (h : w.Prepared) : w.Unused := by
  induction h with
  | ofEngine engine services => exact ofEngine_unused engine services
  | openPool _ _ hosted ih => exact ih.openPool _ hosted

/-- No buffer is stored in them. -/
theorem Prepared.empty (h : w.Prepared) : ∀ x ∈ w.contexts, x.handles = .empty := by
  induction h with
  | ofEngine engine services => exact fun x hmember => nomatch hmember
  | openPool _ hunaided hosted ih => exact openPool_empty hunaided ih

end World

/-- A pool that was made can be used by any callers in any order. -/
theorem Scene.Reachable.of_openPool {w : World} (hunused : w.Unused) (o : PoolOptions)
    (hosted : Bool) : Scene.Reachable (.ofWorld (w.openPool o hosted).2) :=
  .start (hunused.openPool o hosted).fresh

end SandboxPool
