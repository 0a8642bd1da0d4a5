import SandboxPool.Proofs.Pool.Exclusion

/-!
# Who has which scope

A context is under the scope of the caller who has it, and under a scope of its own as long as
nobody has it: `World.Scoped` holds of every reachable scene. So a scope that a caller made, and
that may fire, is on no context but the one that was lent under it, and only while it is lent.
-/

namespace SandboxPool

namespace Task

/-- The scope of the caller who stands behind a task. -/
def scope? : Task → Option ScopeId
  | asking _ scope | waiting _ scope _ | permitted _ scope | holding _ scope _ _
  | settling _ scope _ _ => some scope
  | returning .. | queued .. => none

/-- The context that a caller has, and under which scope. -/
def lends? : Task → Option (ContextId × ScopeId)
  | holding _ scope c _ => some (c, scope)
  | _ => none

theorem context?_of_lends? {t : Task} {c : ContextId} {scope : ScopeId}
    (h : t.lends? = some (c, scope)) : t.context? = some c := by
  cases t with
  | holding place scope' d execution =>
    obtain ⟨rfl, -⟩ := Prod.mk.inj (Option.some.inj h)
    rfl
  | _ => cases h

end Task

/-- The contexts that callers have, and under which scopes. -/
def lendings (tasks : List Task) : List (ContextId × ScopeId) := tasks.filterMap Task.lends?

/-- The scopes that callers are using. -/
def usedScopes (tasks : List Task) : List ScopeId := tasks.filterMap Task.scope?

theorem mem_lendings_middle {l us r : List Task} {lent : ContextId × ScopeId} :
    lent ∈ lendings (l ++ us ++ r) ↔ lent ∈ lendings us ∨ lent ∈ lendings (l ++ r) := by
  unfold lendings
  simp only [List.mem_filterMap, Task.mem_among, or_and_right, exists_or]

theorem usedScopes_middle {l us vs r : List Task} (hfewer : usedScopes us ⊆ usedScopes vs) :
    usedScopes (l ++ us ++ r) ⊆ usedScopes (l ++ vs ++ r) := by
  intro scope
  unfold usedScopes at hfewer ⊢
  simp only [List.filterMap_append, List.mem_append]
  exact Or.imp_left (Or.imp_right fun hmember => hfewer hmember)

namespace World

variable {w w' : World} {c d : ContextId} {scope : ScopeId} {f : Context.Outline → Context.Outline}
  {tasks tasks' : List Task} {scopes : List ScopeId}

/-- The scope that a context is under. -/
def scope? (w : World) (c : ContextId) : Option ScopeId :=
  (w.outline? c).map Context.Outline.scope

theorem scope?_of_same (hsame : w'.outline? = w.outline?) : w'.scope? = w.scope? := by
  funext d
  unfold scope?
  rw [hsame]

/-- The scope stays where something else is written. -/
theorem scope?_of_kept (hsame : w'.outline? = w.marked c f)
    (hkept : ∀ o, (f o).scope = o.scope) : w'.scope? = w.scope? := by
  funext d
  unfold scope?
  rw [hsame]
  exact marked_kept (Option.map Context.Outline.scope) (fun o => congrArg some (hkept o)) d

/-- A context comes under another scope. -/
theorem scope?_of_under {x : Context} (hsame : w'.outline? = w.marked c f)
    (hhere : w.contexts[c]? = some x) (hunder : ∀ o, (f o).scope = scope) (d : ContextId) :
    w'.scope? d = if d = c then some scope else w.scope? d := by
  unfold scope?
  rw [hsame]
  by_cases hd : d = c
  · rw [if_pos hd, hd, marked_self hhere, Option.map_some, hunder]
  · rw [if_neg hd, marked_other hd]

/-- Scopes that callers made are on the contexts that they have, and only there. -/
structure Scoped (w : World) (tasks : List Task) (scopes : List ScopeId) : Prop where
  made : ∀ scope ∈ scopes, Nat.lt scope w.nextScope
  fired : w.fired ⊆ scopes
  used : usedScopes tasks ⊆ scopes
  below : ∀ {c scope}, w.scope? c = some scope → Nat.lt scope w.nextScope
  held : ∀ {c scope}, (c, scope) ∈ lendings tasks → w.scope? c = some scope
  only : ∀ {c scope}, w.scope? c = some scope → scope ∈ scopes → (c, scope) ∈ lendings tasks

namespace Scoped

/-- Where the scopes of contexts stay, and the contexts stay with those who have them. -/
theorem same (h : w.Scoped tasks scopes) (hscope : w'.scope? = w.scope?)
    (hfired : w'.fired = w.fired) (hnext : w'.nextScope = w.nextScope)
    (hlent : ∀ l, l ∈ lendings tasks' ↔ l ∈ lendings tasks)
    (hused : usedScopes tasks' ⊆ usedScopes tasks) : w'.Scoped tasks' scopes where
  made scope hmember := by
    rw [hnext]
    exact h.made scope hmember
  fired := hfired ▸ h.fired
  used _ hmember := h.used (hused hmember)
  below hthere := by
    rw [hnext]
    exact h.below (by rwa [hscope] at hthere)
  held hmember := by
    rw [hscope]
    exact h.held ((hlent _).mp hmember)
  only hthere hmember := (hlent _).mpr (h.only (by rwa [hscope] at hthere) hmember)

/-- Where nobody's scope changes and no scope fires, tasks go on. -/
theorem turn {l r : List Task} {t : Task} (h : w.Scoped tasks scopes)
    (htask : tasks = l ++ t :: r) (us : List Task) (hlent : lendings us = lendings [t])
    (hused : usedScopes us ⊆ usedScopes [t]) (hscope : w'.scope? = w.scope?)
    (hfired : w'.fired = w.fired) (hnext : w'.nextScope = w.nextScope) :
    w'.Scoped (l ++ us ++ r) scopes := by
  rw [htask, List.append_cons] at h
  refine h.same hscope hfired hnext (fun pair => ?_) (usedScopes_middle hused)
  rw [mem_lendings_middle, mem_lendings_middle, hlent]

theorem steady (h : w.Scoped tasks scopes) (hsame : w.Steady w') : w'.Scoped tasks scopes :=
  h.same (scope?_of_same hsame.outline) hsame.fired hsame.nextScope (fun _ => Iff.rfl)
    fun _ hmember => hmember

/-- A context that a task had comes under a scope of its own. -/
theorem renew {l r : List Task} {t : Task} (h : w.Scoped tasks scopes)
    (htask : tasks = l ++ t :: r) (us : List Task) (hlent : lendings us = [])
    (hused : usedScopes us ⊆ usedScopes [t]) (hhas : t.context? = some c)
    (hothers : ∀ u ∈ l ++ r, u.context? ≠ some c)
    (hscope : ∀ d, w'.scope? d = if d = c then some w.nextScope else w.scope? d)
    (hfired : w'.fired = w.fired) (hnext : w'.nextScope = w.nextScope + 1) :
    w'.Scoped (l ++ us ++ r) scopes := by
  rw [htask, List.append_cons] at h
  refine ⟨fun scope hmember => ?_, hfired ▸ h.fired, fun _ hmember => ?_,
    fun {d scope'} hthere => ?_, fun {d scope'} hmember => ?_,
    fun {d scope'} hthere hmember => ?_⟩
  · rw [hnext]
    exact Nat.lt_succ_of_lt (h.made scope hmember)
  · exact h.used (usedScopes_middle hused hmember)
  · rw [hscope] at hthere
    rw [hnext]
    by_cases hd : d = c
    · rw [if_pos hd] at hthere
      exact Option.some.inj hthere ▸ Nat.lt_succ_self _
    · rw [if_neg hd] at hthere
      exact Nat.lt_succ_of_lt (h.below hthere)
  · rw [mem_lendings_middle, hlent] at hmember
    have hmember := hmember.resolve_left List.not_mem_nil
    have hother : d ≠ c := by
      rintro rfl
      obtain ⟨u, hrest, hlends⟩ := List.mem_filterMap.mp hmember
      exact hothers u hrest (Task.context?_of_lends? hlends)
    rw [hscope, if_neg hother]
    exact h.held (mem_lendings_middle.mpr (.inr hmember))
  · rw [hscope] at hthere
    by_cases hd : d = c
    · -- nobody has made the new scope yet
      rw [if_pos hd] at hthere
      exact (Nat.lt_irrefl _ (Option.some.inj hthere ▸ h.made scope' hmember)).elim
    · rw [if_neg hd] at hthere
      rw [mem_lendings_middle]
      rcases mem_lendings_middle.mp (h.only hthere hmember) with hown | hrest
      · -- the task had no other context
        obtain ⟨u, hsingle, hlends⟩ := List.mem_filterMap.mp hown
        rw [List.mem_singleton.mp hsingle] at hlends
        have hsame := (Task.context?_of_lends? hlends).symm.trans hhas
        exact (hd (Option.some.inj hsame)).elim
      · exact .inr hrest

/-- A context that nobody had comes under the scope of a caller. -/
theorem lend (h : w.Scoped tasks scopes) (hown : scope ∈ scopes)
    (hmoved : ∀ d, w'.scope? d = if d = c then some scope else w.scope? d)
    (hfired : w'.fired = w.fired) (hnext : w'.nextScope = w.nextScope)
    (hfree : ∀ scope, (c, scope) ∉ lendings tasks)
    (hlent : ∀ l, l ∈ lendings tasks' ↔ l = (c, scope) ∨ l ∈ lendings tasks)
    (hused : usedScopes tasks' ⊆ usedScopes tasks) : w'.Scoped tasks' scopes where
  made scope hmember := by
    rw [hnext]
    exact h.made scope hmember
  fired := hfired ▸ h.fired
  used _ hmember := h.used (hused hmember)
  below {d scope'} hthere := by
    rw [hmoved] at hthere
    rw [hnext]
    -- One context has changed its scope, and it was lent to nobody.
    by_cases hd : d = c
    · rw [if_pos hd] at hthere
      exact Option.some.inj hthere ▸ h.made scope hown
    · rw [if_neg hd] at hthere
      exact h.below hthere
  held {d scope'} hmember := by
    rw [hmoved]
    rcases (hlent _).mp hmember with hsame | hmember
    · obtain ⟨rfl, rfl⟩ := Prod.mk.inj hsame
      rw [if_pos rfl]
    · by_cases hd : d = c
      · exact (hfree scope' (hd ▸ hmember)).elim
      · rw [if_neg hd]
        exact h.held hmember
  only {d scope'} hthere hmember := by
    rw [hmoved] at hthere
    by_cases hd : d = c
    · rw [if_pos hd] at hthere
      exact (hlent _).mpr (.inl (by rw [hd, Option.some.inj hthere]))
    · rw [if_neg hd] at hthere
      exact (hlent _).mpr (.inr (h.only hthere hmember))

end Scoped

/-- A look at an execution changes nobody's scope. -/
theorem Looked.scope?_same {e : Execution} {x : Context} {polled : Polled}
    (hlooked : w.Looked e x polled w') : w'.scope? = w.scope? := by
  rcases hlooked.outline_cases with hsame | ⟨call, hsame⟩
  · exact scope?_of_same hsame
  · exact scope?_of_kept hsame fun _ => rfl

end World

namespace Scene

variable {s t : Scene}

/-- Every step keeps scopes where they belong. -/
theorem Step.scoped (hstep : Step s t) (hreachable : s.Reachable)
    (h : s.world.Scoped s.tasks s.scopes) : t.world.Scoped t.tasks t.scopes := by
  cases hstep with
  | scope =>
    -- no context is under the new scope, which is above all others
    refine ⟨fun scope hmember => ?_, fun _ hmember => .tail _ (h.fired hmember),
      fun _ hmember => .tail _ (h.used hmember), fun hthere => Nat.lt_succ_of_lt (h.below hthere),
      h.held, fun {c scope} hthere hmember => ?_⟩
    · rcases List.mem_cons.mp hmember with rfl | hmember
      · exact Nat.lt_succ_self _
      · exact Nat.lt_succ_of_lt (h.made scope hmember)
    · rcases List.mem_cons.mp hmember with rfl | hmember
      · exact (Nat.lt_irrefl _ (h.below hthere)).elim
      · exact h.only hthere hmember
  | fire hmade =>
    refine ⟨h.made, fun scope hmember => ?_, h.used, h.below, h.held, h.only⟩
    rcases List.mem_cons.mp hmember with rfl | hmember
    · exact hmade
    · exact h.fired hmember
  | gate _ | elsewhere _ | fault _ => exact h.same rfl rfl rfl (fun _ => Iff.rfl) fun _ hm => hm
  | carry id fuel shut =>
    have hcarried := s.world.carryFor_carried (fun _ => fuel) shut id
    exact h.same (World.scope?_of_same hcarried.outline) hcarried.fired hcarried.nextScope
      (fun _ => Iff.rfl) fun _ hmember => hmember
  | enter place hmade _ =>
    refine ⟨h.made, h.fired, fun scope hmember => ?_, h.below, h.held, h.only⟩
    rcases List.mem_cons.mp hmember with rfl | hmember
    · exact hmade
    · exact h.used hmember
  | @ask l r place scope asked w htask hfound =>
    refine (h.turn htask _ ?_ ?_ rfl rfl rfl).steady (World.ask_steady hfound)
    · cases asked <;> rfl
    · cases asked <;> simp [Task.ofAsked, usedScopes, Task.scope?]
  | @look l r place scope v asked w htask hfound =>
    refine (h.turn htask _ ?_ ?_ rfl rfl rfl).steady (World.askAgain_steady hfound)
    · cases asked <;> rfl
    · cases asked <;> simp [Task.ofAsked, usedScopes, Task.scope?]
  | @giveUp l r place scope v htask =>
    rw [← List.append_nil l]
    exact h.turn htask [] rfl (List.nil_subset _) rfl rfl rfl
  | @take l r place scope taken w htask hfound =>
    have houtline := World.handOut_outline hfound
    have hstill : w.fired = s.world.fired ∧ w.nextScope = s.world.nextScope := by
      rcases World.handOut_cases hfound with
        ⟨-, -, rfl⟩ | ⟨p, p', -, -, ⟨e, -, rfl⟩ | ⟨c, event, -, rfl⟩⟩ <;> exact ⟨rfl, rfl⟩
    cases taken with
    | error e =>
      exact h.turn htask [] rfl (List.nil_subset _) (World.scope?_of_same houtline)
        hstill.1 hstill.2
    | ok c =>
      obtain ⟨p, hhere, hidle⟩ := World.handOut_idle hfound
      -- an idle context is lent to nobody
      have hapart := hreachable.idle_apart hhere hidle
      obtain ⟨x, -, hthere, -⟩ := World.home?_eq_some (hreachable.housed (.inl ⟨p, hhere, hidle⟩))
      have hown : scope ∈ usedScopes s.tasks :=
        List.mem_filterMap.mpr ⟨.permitted place scope, by simp [htask], rfl⟩
      refine h.lend (h.used hown) (World.scope?_of_under houtline hthere fun _ => rfl)
        hstill.1 hstill.2
        (fun scope hmember => ?_) (fun pair => ?_) ?_
      · obtain ⟨u, hmember, hlends⟩ := List.mem_filterMap.mp hmember
        exact hapart (List.mem_filterMap.mpr ⟨u, hmember, Task.context?_of_lends? hlends⟩)
      · rw [htask, List.append_cons l, mem_lendings_middle, mem_lendings_middle]
        simp [lendings, Task.ofTaken, Task.lends?]
      · rw [htask, List.append_cons l]
        exact usedScopes_middle fun _ hmember => hmember
  | touch _ hfound htouched =>
    exact h.same (World.scope?_of_same (World.touch_outline hfound htouched)) rfl rfl
      (fun _ => Iff.rfl) fun _ hmember => hmember
  | @prepare l r place scope c function args e htask hfound =>
    rw [List.append_cons]
    exact h.turn htask [_] rfl (fun _ hmember => hmember) rfl rfl rfl
  | @poll l r place scope c e late polled w htask hfound =>
    rw [List.append_cons]
    rcases World.pollWith_looked hfound with ⟨-, -, rfl⟩ | ⟨x, hhere, hlooked⟩
    · exact h.turn htask [_] rfl (fun _ hmember => hmember) rfl rfl rfl
    · exact h.turn htask [_] rfl (fun _ hmember => hmember) hlooked.scope?_same hlooked.calm.fired
        hlooked.calm.nextScope
  | @release l r place scope c record w htask hfound =>
    have hmine : .holding place scope c none ∈ s.tasks := by simp [htask]
    obtain ⟨x, -, hthere, -⟩ := hreachable.there hmine rfl
    have hmoved := World.scope?_of_under (World.letGo_outline hfound) hthere fun _ => rfl
    obtain ⟨-, rfl⟩ := Prod.mk.inj hfound
    rw [List.append_cons]
    refine h.renew htask [_] ?_ ?_ rfl (hreachable.others htask rfl) hmoved rfl rfl
    · cases record <;> rfl
    · cases record with
      | none => exact List.nil_subset _
      | some call => exact fun _ hmember => hmember
  | @settle l r place scope c call htask hpast =>
    rw [List.append_cons]
    exact (h.turn htask [.returning place c] rfl (List.nil_subset _) rfl rfl rfl).steady
      (World.count_steady c Counters.settle)
  | @enqueue l r place c returned w htask hfound =>
    have hmine : .returning place c ∈ s.tasks := by simp [htask]
    obtain ⟨x, -, hthere, -⟩ := hreachable.there hmine rfl
    have hstill : w.fired = s.world.fired ∧ w.nextScope = s.world.nextScope + 1 := by
      rcases World.enqueue_cases hfound with ⟨-, -, rfl⟩ |
        ⟨p, got, p', -, -, -, ⟨-, event, rfl⟩ | ⟨-, rfl⟩⟩ <;> exact ⟨rfl, rfl⟩
    have hqueued : lendings (Task.ofReturned place c returned).toList = [] ∧
        usedScopes (Task.ofReturned place c returned).toList = [] := by
      unfold Task.ofReturned
      split <;> exact ⟨rfl, rfl⟩
    refine h.renew htask _ hqueued.1 ?_ rfl (hreachable.others htask rfl)
      (World.scope?_of_under (World.enqueue_outline hfound) hthere fun _ => rfl) hstill.1 hstill.2
    rw [hqueued.2]
    exact List.nil_subset _
  | @announce l r place c htask =>
    rw [← List.append_nil l]
    exact (h.turn htask [] rfl (List.nil_subset _) rfl rfl rfl).steady (World.announce_steady _ _)
  | close place => exact h.steady (World.close_steady place)

/-- In every reachable scene scopes are where they belong. -/
theorem Reachable.scoped (h : Reachable s) : s.world.Scoped s.tasks s.scopes := by
  -- nobody has a scope at the start, and contexts are below the next one
  induction h with
  | @start w hfresh =>
    refine ⟨fun _ hmember => (List.not_mem_nil hmember).elim, ?_, List.nil_subset _,
      fun {c scope} hthere => ?_, fun hmember => (List.not_mem_nil hmember).elim,
      fun _ hmember => (List.not_mem_nil hmember).elim⟩
    · rw [show (ofWorld w).world.fired = [] from hfresh.quiet.2.2]
      exact List.nil_subset _
    · have hthere : (w.scope? c) = some scope := hthere
      unfold World.scope? World.outline? at hthere
      rw [Option.map_map, Option.map_eq_some_iff] at hthere
      obtain ⟨x, hhere, rfl⟩ := hthere
      exact (hfresh.unused hhere).2
  | step hbefore hnext ih => exact hnext.scoped hbefore ih

end Scene
end SandboxPool
