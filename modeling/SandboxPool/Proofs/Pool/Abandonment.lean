import SandboxPool.Proofs.Pool.Tables

/-!
# Calls that are left behind

A guest call that outlives the execution that began it is recorded on its context until somebody
finds its end. `World.Accounted` says that no such call is forgotten. Here is the converse: what a
task knows of is a call on its own context that nobody has joined (`World.Aware`). So the calls
that are left behind are those that tasks keep records of, one for each context at most
(`Scene.Reachable.leftBehind_iff`).
-/

namespace SandboxPool

/-- The abandoned call on its context that a task keeps a record of. -/
def Task.left? (w : World) : Task → Option CallId
  | holding _ _ c _ => w.inFlight? c
  | settling _ _ _ call => some call
  | _ => none

/-- Where a call is left, the task knows of it, and of no call of its own. -/
theorem Task.Fits.left {w : World} {t : Task} {id : CallId} (h : t.Fits w)
    (hleft : t.left? w = some id) :
    t.call? w = some id ∧ ∀ q scope d e, t = .holding q scope d (some e) → e.own? = none := by
  cases t with
  | holding q scope d execution =>
    cases execution with
    | none => exact ⟨hleft, fun _ _ _ _ hsame => by cases hsame⟩
    | some e =>
      -- With a call of its own an execution keeps no record, and here there is one.
      have hrecord : w.inFlight? d = some id := hleft
      have hnone : e.own? = none := by
        cases hown : e.own? with
        | none => rfl
        | some own' =>
          rw [h.2.record_of_own hown] at hrecord
          cases hrecord
      refine ⟨?_, fun _ _ _ e' hsame => ?_⟩
      · show e.own?.or (w.inFlight? d) = some id
        rw [hnone, Option.none_or, hrecord]
      · cases hsame
        exact hnone
  | settling => exact ⟨hleft, fun _ _ _ _ hsame => by cases hsame⟩
  | _ => cases hleft

/-- What tasks know of are calls on their contexts that nobody has joined. -/
def World.Aware (w : World) (tasks : List Task) (joined : List CallId) : Prop :=
  ∀ t ∈ tasks, ∀ c id, t.context? = some c → t.call? w = some id →
    w.owner? id = some c ∧ id ∉ joined

namespace World.Aware

variable {w w' : World} {t t' : Task} {l r tasks tasks' : List Task} {joined joined' : List CallId}
  {c : ContextId}

/-- Where no call begins and no record changes. -/
theorem same (h : w.Aware tasks joined) (howner : w'.owner? = w.owner?)
    (hrecords : w'.inFlight? = w.inFlight?) : w'.Aware tasks joined := by
  intro t hmember c id hhas hknows
  rw [howner]
  rw [Task.call?_congr fun d _ => congrFun hrecords d] at hknows
  exact h t hmember c id hhas hknows

/-- A task gives way to others that know of no call. -/
theorem giveWay (h : w.Aware tasks joined) (hbefore : tasks = l ++ t :: r) {us : List Task}
    (hnone : ∀ u ∈ us, u.call? w = none) : w.Aware (l ++ us ++ r) joined := by
  intro u hmember c id hhas hknows
  rcases Task.mem_among.mp hmember with hnew | hrest
  · rw [hnone u hnew] at hknows
    cases hknows
  · exact h u (hbefore ▸ Task.mem_beside hrest) c id hhas hknows

/-- A task goes on with its context, and joins the call it knows of at most. -/
theorem goOn (h : w.Aware tasks joined) (hbefore : tasks = l ++ t :: r)
    (hothers : ∀ u ∈ l ++ r, u.context? ≠ some c) (hhas : t.context? = some c)
    (hhas' : t'.context? = some c) (hrecords : ∀ d, d ≠ c → w'.inFlight? d = w.inFlight? d)
    (howner : ∀ {id d}, w.owner? id = some d → w'.owner? id = some d)
    (hjoins : ∀ id ∈ joined', id ∈ joined ∨ t.call? w = some id)
    (hmine : ∀ id, t'.call? w' = some id → w'.owner? id = some c ∧ id ∉ joined') :
    w'.Aware (l ++ t' :: r) joined' := by
  intro u hmember d id hasu hknows
  rcases Task.eq_or_rest rfl hmember with rfl | hrest
  · obtain rfl := Option.some.inj (hhas'.symm.trans hasu)
    exact hmine id hknows
  · have hapart : d ≠ c := by
      rintro rfl
      exact hothers u hrest hasu
    rw [Task.call?_congr fun e hase => hrecords e ?_] at hknows
    · obtain ⟨howned, hwaits⟩ := h u (hbefore ▸ Task.mem_beside hrest) d id hasu hknows
      refine ⟨howner howned, fun hjoined => ?_⟩
      rcases hjoins id hjoined with halready | hknown
      · exact hwaits halready
      · -- what the task joins is a call on its own context
        have hmine : t ∈ tasks := hbefore ▸ List.mem_append_right l List.mem_cons_self
        obtain ⟨howned', -⟩ := h t hmine c id hhas hknown
        exact hapart (Option.some.inj (howned.symm.trans howned'))
    · obtain rfl := Option.some.inj (hasu.symm.trans hase)
      exact hapart

end World.Aware

namespace World

variable {w w' : World} {e : Execution} {x : Context} {polled : Polled} {id : CallId}
  {joined : List CallId}

/-- What is known of an execution's context after a look is a call on it that goes on. -/
theorem Looked.aware (hlooked : w.Looked e x polled w') (hhere : w.contexts[e.context]? = some x)
    (hfits : e.Fits x.inFlight) (hpast : ∀ id ∈ joined, (w.ended? id).isSome)
    (hknown : ∀ id, e.awaits x = some id → w.owner? id = some e.context ∧ id ∉ joined)
    (hknows : (polled.rest.bind Execution.own?).or (w'.inFlight? e.context) = some id) :
    w'.owner? id = some e.context ∧ id ∉ (w.joins e).toList ++ joined := by
  -- it waited for the call before, or the call is new
  have hwaited (hawaits : e.awaits x = some id) (hlive : w.ended? id = none)
      (hcalls : w'.calls = w.calls) :
      w'.owner? id = some e.context ∧ id ∉ (w.joins e).toList ++ joined := by
    obtain ⟨howned, hwaits⟩ := hknown id hawaits
    refine ⟨by rw [owner?_of_calls hcalls, howned], fun hmember => ?_⟩
    rcases List.mem_append.mp hmember with hjoins | halready
    · have hended := ((mem_joins hhere).mp hjoins).2
      rw [hlive] at hended
      cases hended
    · exact hwaits halready
  -- what stays recorded is what it waits for
  have hrecorded {earlier : CallId} (hmine : e.own? = none) (hawaits : e.awaits x = some earlier)
      (hsame : w'.outline? = w.outline?) (hknows : w'.inFlight? e.context = some id) :
      id = earlier := by
    rw [hfits.awaits, hmine, Option.none_or] at hawaits
    rw [inFlight?_of_same hsame, inFlight?_eq hhere, hawaits] at hknows
    exact (Option.some.inj hknows).symm
  cases hlooked with
  | @waits _ earlier _ hmine hawaits hlive hsame hcalls =>
    obtain rfl := hrecorded hmine hawaits hsame hknows
    exact hwaited hawaits hlive hcalls
  | @givesUp _ earlier _ _ hmine hawaits hlive hsame hcalls =>
    obtain rfl := hrecorded hmine hawaits hsame hknows
    exact hwaited hawaits hlive hcalls
  | @begins _ run _ _ _ _ hcalls =>
    obtain rfl : w.calls.size = id := Option.some.inj hknows
    have habsent : w.calls[w.calls.size]? = none := Array.getElem?_eq_none (Nat.le_refl _)
    have hlive : w.ended? w.calls.size = none := by
      unfold ended?
      rw [habsent]
      rfl
    refine ⟨?_, fun hmember => ?_⟩
    · unfold owner?
      rw [hcalls, spawned, Array.getElem?_push_size]
      rfl
    · have hended : (w.ended? w.calls.size).isSome := by
        rcases List.mem_append.mp hmember with hjoins | halready
        · exact ((mem_joins hhere).mp hjoins).2
        · exact hpast _ halready
      rw [hlive] at hended
      cases hended
  | refuses _ _ _ hsame _ =>
    have hknows : w'.inFlight? e.context = some id := hknows
    rw [inFlight?_of_marked_self hsame hhere] at hknows
    cases hknows
  | @stays _ own _ hmine hlive _ hcalls =>
    have hknows : e.own?.or (w'.inFlight? e.context) = some id := hknows
    rw [hmine, Option.some_or] at hknows
    obtain rfl := Option.some.inj hknows
    exact hwaited (by rw [hfits.awaits, hmine, Option.some_or]) hlive hcalls
  | joins _ hmine _ hsame _ =>
    have hknows : w'.inFlight? e.context = some id := hknows
    rw [inFlight?_of_same hsame, inFlight?_eq hhere, hfits.record_of_own hmine] at hknows
    cases hknows
  | @abandons _ own _ _ hmine hlive hsame hcalls =>
    have hknows : w'.inFlight? e.context = some id := hknows
    rw [inFlight?_of_marked_self hsame hhere] at hknows
    obtain rfl : own = id := Option.some.inj hknows
    exact hwaited (by rw [hfits.awaits, hmine, Option.some_or]) hlive hcalls

end World

namespace Scene

variable {s t : Scene} {c : ContextId}

/-- Every step keeps what tasks know of. -/
theorem Step.aware (hstep : Step s t) (hreachable : s.Reachable)
    (h : s.world.Aware s.tasks s.joined) : t.world.Aware t.tasks t.joined := by
  cases hstep with
  | scope | fire _ | gate _ | elsewhere _ | fault _ => exact h.same rfl rfl
  | carry i fuel shut =>
    have hcarried := s.world.carryFor_carried (fun _ => fuel) shut i
    exact h.same hcarried.owner (World.inFlight?_of_same hcarried.outline)
  | enter place _ _ =>
    intro u hmember c id hhas hknows
    rcases List.mem_cons.mp hmember with rfl | hmember
    · cases hhas
    · exact h u hmember c id hhas hknows
  | @ask l r place scope asked w htask hfound =>
    have hsteady := World.ask_steady hfound
    refine (h.giveWay htask ?_).same hsteady.owner (World.inFlight?_of_same hsteady.outline)
    cases asked <;> simp [Task.ofAsked, Task.call?]
  | @look l r place scope v asked w htask hfound =>
    have hsteady := World.askAgain_steady hfound
    refine (h.giveWay htask ?_).same hsteady.owner (World.inFlight?_of_same hsteady.outline)
    cases asked <;> simp [Task.ofAsked, Task.call?]
  | @giveUp l r place scope v htask =>
    rw [← List.append_nil l]
    exact (h.giveWay htask (List.forall_mem_nil _)).same rfl rfl
  | @take l r place scope taken w htask hfound =>
    have howner := World.owner?_of_calls (World.handOut_calls hfound)
    have houtline := World.handOut_outline hfound
    cases taken with
    | error e =>
      exact (h.giveWay htask (List.forall_mem_nil _)).same howner (World.inFlight?_of_same houtline)
    | ok c =>
      -- what is handed out nobody had, so nothing is recorded on it
      obtain ⟨p, hhere, hidle⟩ := World.handOut_idle hfound
      have hclean := hreachable.free_record (hreachable.idle_free hhere hidle)
      refine (h.giveWay htask ?_).same howner (World.inFlight?_of_kept houtline (by intro o; rfl))
      simp [Task.ofTaken, Task.call?, hclean]
  | touch _ hfound htouched =>
    have houtline := World.touch_outline hfound htouched
    exact h.same rfl (World.inFlight?_of_same houtline)
  | @prepare l r place scope c function args e htask hfound =>
    obtain rfl := World.prepare_eq hfound
    have hmine : .holding place scope c none ∈ s.tasks := by simp [htask]
    exact h.goOn htask (hreachable.others htask rfl) rfl rfl (fun _ _ => rfl) (fun h => h)
      (fun _ => .inl) fun id hknows => h _ hmine c id rfl hknows
  | @poll l r place scope c e late polled w htask hfound =>
    have hmine : .holding place scope c (some e) ∈ s.tasks := by simp [htask]
    obtain ⟨rfl, x, hhere, hfits, hlooked⟩ := hreachable.orderly.looked hmine hfound
    -- what the execution waits for is what its task knows of
    have hknows {id : CallId} (hawaits : e.awaits x = some id) :
        (Task.holding place scope e.context (some e)).call? s.world = some id := by
      rw [← hawaits, hfits.awaits, ← World.inFlight?_eq hhere]
      rfl
    refine h.goOn htask (hreachable.others htask rfl) rfl rfl
      (fun d hd => hlooked.inFlight?_other hd) ?_ (fun id hmember => ?_) fun id hknows' => ?_
    · intro id d howned
      obtain ⟨call, hfound, rfl⟩ := Option.map_eq_some_iff.mp howned
      exact congrArg (Option.map Call.context) (hlooked.calls_kept hfound)
    · rcases List.mem_append.mp hmember with hjoins | halready
      · exact .inr (hknows ((World.mem_joins hhere).mp hjoins).1)
      · exact .inl halready
    · exact hlooked.aware hhere hfits (fun _ => hreachable.accounted.past)
        (fun id hawaits => h _ hmine _ id rfl (hknows hawaits)) hknows'
  | @release l r place scope c record w htask hfound =>
    have hmine : .holding place scope c none ∈ s.tasks := by simp [htask]
    have howner := World.owner?_of_calls (World.letGo_calls hfound)
    have hhanded := World.letGo_record hfound
    refine h.goOn htask (hreachable.others htask rfl) rfl ?_ ?_ ?_ (fun _ => .inl) ?_
    · cases record <;> rfl
    · exact fun d hd => World.inFlight?_of_marked (World.letGo_outline hfound) hd
    · rw [howner]
      exact id
    · intro id hknows
      rw [howner]
      refine h _ hmine c id rfl (hhanded.symm.trans ?_)
      cases record with
      | none => cases hknows
      | some call => exact hknows
  | @settle l r place scope c call htask hpast =>
    have hsteady := World.count_steady (w := s.world) c Counters.settle
    refine World.Aware.same ?_ hsteady.owner (World.inFlight?_of_same hsteady.outline)
    refine h.goOn htask (hreachable.others htask rfl) rfl rfl (fun _ _ => rfl) (fun h => h) ?_ ?_
    · intro id hmember
      rcases List.mem_cons.mp hmember with rfl | halready
      · exact .inr rfl
      · exact .inl halready
    · intro id hknows
      cases hknows
  | @enqueue l r place c returned w htask hfound =>
    have howner := World.owner?_of_calls (World.enqueue_calls hfound)
    have hrecords := World.inFlight?_of_kept (World.enqueue_outline hfound) (by intro o; rfl)
    refine (h.giveWay htask fun u hmember => ?_).same howner hrecords
    rw [Task.mem_ofReturned hmember]
    rfl
  | @announce l r place c htask =>
    have hsteady := World.announce_steady (w := s.world) place c
    rw [← List.append_nil l]
    exact (h.giveWay htask (List.forall_mem_nil _)).same hsteady.owner
      (World.inFlight?_of_same hsteady.outline)
  | close place =>
    have hsteady := World.close_steady (w := s.world) place
    exact h.same hsteady.owner (World.inFlight?_of_same hsteady.outline)

/-- In every reachable scene tasks know of calls on their own contexts that nobody has joined. -/
theorem Reachable.aware (h : s.Reachable) : s.world.Aware s.tasks s.joined := by
  induction h with
  | start _ => exact fun t hmember => absurd hmember List.not_mem_nil
  | step hbefore hnext ih => exact hnext.aware hbefore ih

/-! ## Contexts with abandoned calls -/

/-- A call on the context was begun, no execution is under way with it, and nobody has joined
it. -/
def LeftBehind (s : Scene) (c : ContextId) : Prop :=
  ∃ id, s.world.owner? id = some c ∧ id ∉ s.joined ∧
    ∀ q scope d e, .holding q scope d (some e) ∈ s.tasks → e.own? ≠ some id

/-- A call is left behind on a context if whoever has it keeps a record of one, and only then. -/
theorem Reachable.leftBehind_iff (h : s.Reachable) :
    s.LeftBehind c ↔ ∃ t ∈ s.tasks, (t.left? s.world).isSome ∧ t.context? = some c := by
  constructor
  · rintro ⟨id, howned, hwaits, hnobody⟩
    rcases h.accounted.known howned with hjoined | ⟨t, hmember, hhas, hknows⟩
    · exact absurd hjoined hwaits
    refine ⟨t, hmember, ?_, hhas⟩
    cases t with
    | holding q scope d execution =>
      have hrecord : s.world.inFlight? d = some id := by
        cases execution with
        | none => exact hknows
        | some e =>
          have hknows : e.own?.or (s.world.inFlight? d) = some id := hknows
          cases hown : e.own? with
          | none => rwa [hown, Option.none_or] at hknows
          | some own' =>
            rw [hown, Option.some_or] at hknows
            exact absurd (hown.trans hknows) (hnobody q scope d e hmember)
      show (s.world.inFlight? d).isSome
      rw [hrecord]
      rfl
    | settling => rfl
    | returning => cases hknows
    | _ => cases hhas
  · rintro ⟨t, hmember, hleft, hhas⟩
    obtain ⟨id, hleft⟩ := Option.isSome_iff_exists.mp hleft
    obtain ⟨hknows, hidle⟩ := (h.accounted.fits hmember).left hleft
    obtain ⟨howned, hwaits⟩ := h.aware t hmember c id hhas hknows
    refine ⟨id, howned, hwaits, fun q scope d e hmember' hown => ?_⟩
    -- an execution with the call would be on the same context, and so the task's own
    have hknows' : (Task.holding q scope d (some e)).call? s.world = some id := by
      show e.own?.or _ = _
      rw [hown, Option.some_or]
    obtain ⟨howned', -⟩ := h.aware _ hmember' d id rfl hknows'
    obtain rfl := Option.some.inj (howned.symm.trans howned')
    have hsame := h.unique hmember hmember' hhas rfl
    rw [hidle q scope c e hsame.symm] at hown
    cases hown

end Scene
end SandboxPool
