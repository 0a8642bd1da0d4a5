import SandboxPool.Proofs.Pool.Borrows

/-!
# What others do to a context that they do not have

While a task stays where it is, the others do what they could do without it (`Scene.Apart`). The
table of the task's context then changes only as a call on it does that goes on (`Apart.table`), and
such a call stores no messages of the host (`HandleTable.Sent.of_worked`).
-/

namespace SandboxPool

/-- Under a handle is a message of the host. -/
def HandleTable.Sent (t : HandleTable) (handle : Int32) : Prop :=
  ∃ buffer, t.get? handle = some buffer ∧ buffer.messageType.isSome

namespace HandleTable

variable {t t' : HandleTable} {handle other : Int32} {buffer : Buffer}

/-- Storing a buffer adds one handle to those that lead somewhere. -/
theorem Sent.of_insert (hsent : t'.Sent other) (h : t.WellFormed)
    (hstored : t.insert buffer = .ok (handle, t')) : other = handle ∨ t.Sent other := by
  obtain ⟨found, hthere, htyped⟩ := hsent
  rw [(insert_get? h hstored).2] at hthere
  by_cases hsame : other = handle
  · exact .inl hsame
  · rw [if_neg hsame] at hthere
    exact .inr ⟨found, hthere, htyped⟩

/-- Dropping one takes at most one of them away. -/
theorem Sent.of_discard (hsent : (t.discard handle).2.Sent other) (h : t.WellFormed) :
    other ≠ handle ∧ t.Sent other := by
  obtain ⟨found, hthere, htyped⟩ := hsent
  rw [discard_get? h] at hthere
  by_cases hsame : other = handle
  · rw [if_pos hsame] at hthere
    cases hthere
  · rw [if_neg hsame] at hthere
    exact ⟨hsame, found, hthere, htyped⟩

/-- Guests store no messages of the host. -/
theorem Sent.of_worked (hsent : t'.Sent handle) (h : t.WellFormed) (hworked : t.Worked t') :
    t.Sent handle := by
  obtain ⟨ops, hrun, huntyped⟩ := hworked
  induction hrun with
  | nil _ => exact hsent
  | @insert t buffer given t₁ ops t₂ hstored hrest ih =>
    have hearlier := ih hsent (insert_wellFormed h hstored) fun b handle hmember =>
      huntyped b handle (.tail _ hmember)
    obtain ⟨found, hthere, htyped⟩ := hearlier
    rw [(insert_get? h hstored).2] at hthere
    by_cases hsame : handle = given
    · -- what was stored there has no type
      rw [if_pos hsame] at hthere
      obtain rfl := Option.some.inj hthere
      rw [huntyped buffer given (.head _)] at htyped
      cases htyped
    · rw [if_neg hsame] at hthere
      exact ⟨found, hthere, htyped⟩
  | discard hrest ih =>
    have hearlier := ih hsent (discard_wellFormed h _) fun b handle hmember =>
      huntyped b handle (.tail _ hmember)
    exact (hearlier.of_discard h).2

theorem Bare.not_sent (hbare : t.Bare) (handle : Int32) : ¬ t.Sent handle := by
  rintro ⟨found, hthere, -⟩
  rw [hbare.get? handle] at hthere
  cases hthere

/-- Messages under no more handles than a list has are no more than the list is long. -/
theorem ncard_sent_le {handles : List Int32} (hamong : ∀ handle, t.Sent handle → handle ∈ handles) :
    {handle | t.Sent handle}.ncard ≤ handles.length := by
  have hinside : {handle | t.Sent handle} ⊆ handles.toFinset := fun handle hsent =>
    List.mem_toFinset.mpr (hamong handle hsent)
  have hfew := Set.ncard_le_ncard hinside (Finset.finite_toSet _)
  rw [Set.ncard_coe_finset] at hfew
  exact hfew.trans (List.toFinset_card_le handles)

end HandleTable

namespace Scene

variable {s t : Scene} {c : ContextId}

/-- What others do: the step could as well be taken if the task were not there. -/
inductive Apart (task : Task) : Scene → Scene → Prop where
  | intro {s t : Scene} {l r l' r'} (hbefore : s.tasks = l ++ task :: r)
      (hafter : t.tasks = l' ++ task :: r') (hstep : Step s t)
      (halone : Step { s with tasks := l ++ r } { t with tasks := l' ++ r' }) : Apart task s t

/-- A step of those who do not have a context changes its table only as a call on its guest does
that goes on. -/
theorem Step.table_free (hstep : Step s t) (hfree : s.Free c) :
    t.world.table? c = s.world.table? c ∨
      ∃ id table table', s.world.site? id = some c ∧ s.world.ended? id = none ∧
        s.world.table? c = some table ∧ t.world.table? c = some table' ∧
          table.Worked table' := by
  -- Tables change in three steps: a call that is carried, a touch, and a context that is cleared.
  cases hstep with
  | scope | fire _ | gate _ | elsewhere _ | enter _ _ _ | giveUp _ | prepare _ _ | fault _ =>
    exact .inl rfl
  | carry id fuel shut =>
    rcases World.carryFor_table (w := s.world) (fun _ => fuel) shut id with hsame |
      ⟨d, table, table', hsited, hlive, hhere, hworked, hchanged⟩
    · exact .inl (congrFun hsame c)
    · by_cases hc : c = d
      · subst hc
        exact .inr ⟨id, table, table', hsited, hlive, hhere, (hchanged c).trans (if_pos rfl),
          hworked⟩
      · exact .inl ((hchanged c).trans (if_neg hc))
  | ask _ hfound => exact .inl (congrFun (World.ask_steady hfound).table c)
  | look _ hfound => exact .inl (congrFun (World.askAgain_steady hfound).table c)
  | take _ hfound => exact .inl (congrFun (World.handOut_table hfound) c)
  | touch htask _ _ =>
    have hother := hfree _ htask
    refine .inl ((World.modifyContext_table _ c).trans (if_neg ?_))
    rintro rfl
    exact hother rfl
  | poll _ hfound => exact .inl (congrFun (World.pollWith_table hfound) c)
  | release _ hfound => exact .inl (congrFun (World.letGo_table hfound) c)
  | settle _ _ => exact .inl (congrFun (World.count_steady _ _).table c)
  | @enqueue l r place d returned w htask hfound =>
    have hother : (Task.returning place d).context? ≠ some c := hfree _ (by simp [htask])
    refine .inl ((World.enqueue_table hfound c).trans (if_neg ?_))
    rintro rfl
    exact hother rfl
  | announce _ => exact .inl (congrFun (World.announce_steady _ _).table c)
  | close place => exact .inl (congrFun (World.close_steady place).table c)

/-- A step apart from a task is a step of the scene. -/
theorem Apart.step {task : Task} (hapart : Apart task s t) : Step s t := by
  cases hapart with
  | intro _ _ hstep _ => exact hstep

theorem Apart.mem {task : Task} (hapart : Apart task s t) : task ∈ t.tasks := by
  cases hapart with
  | intro _ hafter _ _ => simp [hafter]

/-- Others change the table of a task's context only as a call on it does that goes on. -/
theorem Apart.table {task : Task} (hapart : Apart task s t) (h : s.Reachable)
    (hhas : task.context? = some c) :
    t.world.table? c = s.world.table? c ∨
      ∃ id table table', s.world.owner? id = some c ∧ s.world.ended? id = none ∧
        s.world.table? c = some table ∧ t.world.table? c = some table' ∧
          table.Worked table' := by
  cases hapart with
  | intro hbefore _ _ halone =>
    rw [← h.homely.calls]
    exact halone.table_free (h.others hbefore hhas)

/-- Others leave the record on a task's context alone. -/
theorem Apart.record {task : Task} (hapart : Apart task s t) (h : s.Reachable)
    (hhas : task.context? = some c) : t.world.inFlight? c = s.world.inFlight? c := by
  cases hapart with
  | intro hbefore hafter hstep _ =>
    exact hstep.record_kept h (by simp [hbefore]) (by simp [hafter]) hhas

end Scene

end SandboxPool
