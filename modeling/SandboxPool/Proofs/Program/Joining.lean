import SandboxPool.Proofs.Program.Hosting

/-!
# Joining all callers

A pool that was made has a permit for every caller that the program sends off, so none of them
waits for another, and each gets to its end by itself: its executions end with their deadline at
the latest. So the program can join its callers in every order (`Hosting.completes`). One of its
runs is `Program.runCallers`, which lets the callers begin one after another and joins them in the
same order (`Hosting.runCallers_runs`).
-/

namespace SandboxPool

namespace Stage

variable {β : Type} {q : Nat} {scope : ScopeId} {a b : World × Stage β} {w : World} {c : ContextId}

/-! ## A caller gets to its end -/

/-- Any number of moves. -/
abbrev Moves (q : Nat) (scope : ScopeId) : World × Stage β → World × Stage β → Prop :=
  Relation.ReflTransGen (Move q scope)

/-- It has come to its end. -/
def Ended (stage : Stage β) : Prop := ∃ ended result, stage = finished ended result

/-- One at this stage can come to its end by itself. -/
def Finishes (q : Nat) (scope : ScopeId) (a : World × Stage β) : Prop :=
  ∃ b, Moves q scope a b ∧ b.2.Ended

theorem Finishes.first (hmove : Move q scope a b) (h : Finishes q scope b) :
    Finishes q scope a := by
  obtain ⟨last, hrun, hended⟩ := h
  exact ⟨last, .head hmove hrun, hended⟩

theorem Ended.finishes (h : a.2.Ended) : Finishes q scope a := ⟨a, .refl, h⟩

/-- Once the pool has answered, the end of the callback is reported. -/
theorem finishes_released (w : World) (back : Outcome Unit) (ended : World.CallbackEnd β) :
    Finishes q scope (w, released back ended) := by
  cases ended with
  | returned result => exact .first (.goes (.reports rfl)) (Ended.finishes ⟨_, _, rfl⟩)
  | panicked message => exact .first (.faults default) (Ended.finishes ⟨_, _, rfl⟩)

/-- An execution ends with its deadline, at the second look at the latest. -/
theorem finishes_executing {e : Execution} {next : Outcome (List Value) → Callback β}
    (hgoesOn : ∀ answer w, Finishes q scope (w, inside c (next answer))) (w : World) :
    Finishes q scope (w, executing c e next) := by
  rcases hfound : w.pollWith (fun w _ => w) e true with ⟨polled, w₁⟩
  refine .first (.goes (.polls rfl hfound)) ?_
  rcases World.pollWith_late hfound with ⟨result, rfl⟩ | ⟨e', own, rfl, hphase⟩
  · exact hgoesOn result w₁
  · obtain ⟨result, w₂, hfound'⟩ := w₁.pollWith_running_late (fun w _ => w) hphase
    exact .first (.goes (.polls rfl hfound')) (hgoesOn result w₂)

/-- Whatever a callback does, one who runs it with a context comes to its end. -/
theorem finishes_inside (callback : Callback β) (w : World) :
    Finishes q scope (w, inside c callback) := by
  -- by induction on the callback, which goes on after each execution
  induction callback generalizing w with
  | ends ended => exact .first (.releases rfl) (finishes_released _ _ ended)
  | executes function args next hgoesOn =>
    cases hfound : w.prepare c function args with
    | error failure => exact .first (.goes (.misses rfl hfound)) (hgoesOn _ w)
    | ok e => exact .first (.goes (.prepares rfl hfound)) (finishes_executing hgoesOn w)

theorem finishes_permitted (w : World) (callback : Callback β) :
    Finishes q scope (w, permitted callback) := by
  rcases hfound : w.handOut q scope with ⟨taken, w'⟩
  refine .first (.goes (.takes rfl hfound)) ?_
  cases taken with
  | error e => exact Ended.finishes ⟨_, _, rfl⟩
  | ok c => exact finishes_inside callback w'

/-- One who asks while a permit is free comes to its end. -/
theorem finishes_asking (callback : Callback β) (h : w.Spares q 1) :
    Finishes q scope (w, asking callback) := by
  rcases hfound : w.ask q scope with ⟨asked, w'⟩
  refine .first (.goes (.asks rfl hfound)) ?_
  rcases World.ask_spares h hfound with ⟨⟨cause, rfl⟩, -⟩ | ⟨rfl, -⟩
  · exact Ended.finishes ⟨_, _, rfl⟩
  · exact finishes_permitted w' callback

/-- One who does not stand in line comes to its end, if a permit is free should it need one. -/
theorem finishes {stage : Stage β} (h : w.Spares q stage.asksFor) (hfree : ¬ stage.InLine) :
    Finishes q scope (w, stage) := by
  -- From every stage there is a way to the end, through the stages that come after it.
  cases stage with
  | outside callback =>
    cases hfound : w.isOpen q with
    | false => exact .first (.goes (.turnsAway rfl hfound)) (Ended.finishes ⟨_, _, rfl⟩)
    | true => exact .first (.enters hfound) (finishes_asking callback h)
  | asking callback => exact finishes_asking callback h
  | waiting v callback => exact absurd trivial hfree
  | permitted callback => exact finishes_permitted w callback
  | inside c callback => exact finishes_inside callback w
  | executing c e next => exact finishes_executing (fun answer => finishes_inside (next answer)) w
  | returning c ended =>
    rcases hfound : w.enqueue q c with ⟨returned, w'⟩
    refine .first (.goes (.enqueues rfl hfound)) ?_
    rcases returned with _ | (_ | _ | _)
    · exact finishes_released _ _ ended
    · exact .first (.goes (.announces rfl)) (finishes_released _ _ ended)
    · exact finishes_released _ _ ended
    · exact finishes_released _ _ ended
  | queued c ended => exact .first (.goes (.announces rfl)) (finishes_released _ _ ended)
  | released back ended => exact finishes_released w back ended
  | finished ended result => exact Ended.finishes ⟨ended, result, rfl⟩

end Stage

namespace Hosting

variable {q n : Nat} {words : String} {callback : Nat → Callback (List Value)} {s t : Hosting}
  {l r : List Seat} {seat : Seat} {w : World}

/-! ## Nobody waits for another -/

/-- How many permits the callers will ask for that are due or under way. -/
def demand (s : Hosting) : Nat :=
  s.due.length + (s.seats.map fun seat => seat.stage.asksFor).sum

/-- The pool has a permit for each caller that will ask, and nobody stands in line. -/
structure Supplied (q : Nat) (s : Hosting) : Prop where
  spares : s.world.Spares q s.demand
  free : ∀ seat ∈ s.seats, ¬ seat.stage.InLine

theorem demand_middle {world : World} {due : List Nat} {joined : Joined}
    {outcomes : List (Nat × Outcome (List Value))} {exit : Option (Except ExitError Unit)} :
    demand ⟨world, due, l ++ seat :: r, joined, outcomes, exit⟩ =
      seat.stage.asksFor + demand ⟨world, due, l ++ r, joined, outcomes, exit⟩ := by
  unfold demand
  simp only [List.map_append, List.map_cons, List.sum_append, List.sum_cons]
  omega

/-- What one caller demands comes on top of what the others do. -/
theorem demand_eq (hwho : s.seats = l ++ seat :: r) :
    s.demand = seat.stage.asksFor + demand { s with seats := l ++ r } := by
  rw [← demand_middle, ← hwho]

theorem mem_of_beside (hwho : s.seats = l ++ seat :: r) {other : Seat} (hmember : other ∈ l ++ r) :
    other ∈ s.seats := by
  have hsublist : (l ++ r).Sublist (l ++ seat :: r) := (List.sublist_cons_self seat r).append_left l
  exact hwho ▸ hsublist.subset hmember

/-- Until the pool is closed, it has a permit for each caller that will ask. -/
theorem Step.supplied (hstep : Step q words callback s t) (h : s.exit = none → s.Supplied q)
    (hrunning : t.exit = none) : t.Supplied q := by
  have hkept (hrunning : s.exit = none) {w : World} (hkept : s.world.Kept q w) :
      Supplied q { s with world := w } :=
    ⟨hkept.spares (h hrunning).spares, (h hrunning).free⟩
  cases hstep with
  | @spawns number due hnext =>
    obtain ⟨hspares, hfree⟩ := h hrunning
    refine ⟨?_, fun seat hmember => ?_⟩
    · have hsame : demand { s with
          world := s.world.freshScope.2, due,
          seats := s.seats ++ [⟨number, s.world.nextScope, .outside (callback number)⟩] } =
          s.demand := by
        unfold demand
        simp only [hnext, List.map_append, List.map_cons, List.map_nil, List.sum_append,
          List.sum_cons, List.sum_nil, List.length_cons, Stage.asksFor]
        omega
      rw [hsame]
      exact hspares
    · rcases List.mem_append.mp hmember with hold | hnew
      · exact hfree seat hold
      · obtain rfl := List.mem_singleton.mp hnew
        exact id
  | @moves l seat r w stage hwho hmove =>
    -- the permits for the others are still there after the move
    obtain ⟨hspares, hfree⟩ := h hrunning
    rw [demand_eq hwho] at hspares
    obtain ⟨hspares', hfree'⟩ := hmove.spares hspares (hfree seat (by simp [hwho]))
    refine ⟨?_, fun other hmember => ?_⟩
    · rw [demand_middle]
      exact hspares'
    · rcases List.mem_append.mp hmember with hleft | hright
      · exact hfree other (mem_of_beside hwho (List.mem_append_left r hleft))
      · rcases List.mem_cons.mp hright with rfl | hright
        · exact hfree'
        · exact hfree other (mem_of_beside hwho (List.mem_append_right l hright))
  | background hmove => exact hkept hrunning (hmove.kept q)
  | gate gate => exact hkept hrunning (.of_front rfl rfl)
  | elsewhere services => exact hkept hrunning (.of_front rfl rfl)
  | @joins l seat r ended result hall hwho hstage =>
    obtain ⟨hspares, hfree⟩ := h hrunning
    rw [demand_eq hwho] at hspares
    refine ⟨?_, fun other hmember => hfree other (mem_of_beside hwho hmember)⟩
    obtain ⟨f, hfront, hrest⟩ := hspares.mono (Nat.le_add_left ..)
    exact ⟨f, (join_front s seat.number result (l ++ r) q).trans hfront, hrest⟩
  | exits => cases hrunning

/-- So it has at every moment of a run. -/
theorem Runs.supplied (hrun : Runs q words callback s t) (h : s.exit = none → s.Supplied q) :
    t.exit = none → t.Supplied q := by
  induction hrun with
  | refl => exact h
  | tail _ hnext ih => exact hnext.supplied ih

/-! ## In every order -/

/-- The program with one caller at another stage, in another world. -/
def placed (s : Hosting) (l : List Seat) (seat : Seat) (r : List Seat)
    (a : World × Stage (List Value)) : Hosting :=
  { s with world := a.1, seats := l ++ { seat with stage := a.2 } :: r }

theorem placed_self (hwho : s.seats = l ++ seat :: r) :
    s.placed l seat r (s.world, seat.stage) = s := by
  obtain ⟨world, due, seats, joined, outcomes, exit⟩ := s
  obtain rfl : seats = l ++ seat :: r := hwho
  rfl

/-- The moves of one caller are steps of the program. -/
theorem placed_runs {a b : World × Stage (List Value)} (hmoves : Stage.Moves q seat.scope a b) :
    Runs q words callback (s.placed l seat r a) (s.placed l seat r b) := by
  induction hmoves with
  | refl => exact .refl
  | @tail b d _ hmove ih =>
    have hwho : (s.placed l seat r b).seats = l ++ { seat with stage := b.2 } :: r := rfl
    have hstep : Step q words callback (s.placed l seat r b) _ := .moves hwho hmove
    exact ih.tail hstep

/-- All callers that are due can be sent off. -/
theorem sends (q : Nat) (words : String) (callback : Nat → Callback (List Value)) (s : Hosting) :
    ∃ t, Runs q words callback s t ∧ t.due = [] ∧
    t.seats.map Seat.number = s.seats.map Seat.number ++ s.due ∧
    t.outcomes = s.outcomes ∧ t.exit = s.exit := by
  generalize hnext : s.due = due
  induction due generalizing s with
  | nil => exact ⟨s, .refl, hnext, (List.append_nil _).symm, rfl, rfl⟩
  | cons number due ih =>
    obtain ⟨t, hrun, hall, hnumbers, houtcomes, hexit⟩ := ih { s with
      world := s.world.freshScope.2
      due
      seats := s.seats ++ [⟨number, s.world.nextScope, .outside (callback number)⟩] } rfl
    refine ⟨t, .head (.spawns hnext) hrun, hall, hnumbers.trans ?_, houtcomes, hexit⟩
    simp

/-- One caller can come to its end while the others stay where they are. -/
theorem ends_one (words : String) (callback : Nat → Callback (List Value))
    (hwho : s.seats = l ++ seat :: r) (hsupplied : s.Supplied q) :
    ∃ b, Runs q words callback s (s.placed l seat r b) ∧ b.2.Ended := by
  have hpermit : s.world.Spares q seat.stage.asksFor := by
    have hspares := hsupplied.spares
    rw [demand_eq hwho] at hspares
    exact hspares.mono (Nat.le_add_right ..)
  obtain ⟨b, hmoves, hended⟩ : Stage.Finishes q seat.scope (s.world, seat.stage) :=
    Stage.finishes hpermit (hsupplied.free seat (by simp [hwho]))
  have hrun : Runs q words callback _ (s.placed l seat r b) := placed_runs hmoves
  rw [placed_self hwho] at hrun
  exact ⟨b, hrun, hended⟩

/-- All callers that are under way can come to their end. -/
theorem ends (words : String) (callback : Nat → Callback (List Value)) (s : Hosting)
    (hrunning : s.exit = none) (hsupplied : s.Supplied q) :
    ∃ t, Runs q words callback s t ∧ t.due = s.due ∧ (∀ seat ∈ t.seats, seat.stage.Ended) ∧
      t.seats.map Seat.number = s.seats.map Seat.number ∧
      t.outcomes = s.outcomes ∧ t.exit = s.exit := by
  -- one after another: `l` are those that have come to their end
  have hrest (l r : List Seat) (s : Hosting) (hseats : s.seats = l ++ r)
      (hdone : ∀ seat ∈ l, seat.stage.Ended) (hrunning : s.exit = none)
      (hsupplied : s.Supplied q) : ∃ t, Runs q words callback s t ∧ t.due = s.due ∧
      (∀ seat ∈ t.seats, seat.stage.Ended) ∧
      t.seats.map Seat.number = s.seats.map Seat.number ∧
      t.outcomes = s.outcomes ∧ t.exit = s.exit := by
    induction r generalizing l s with
    | nil =>
      rw [List.append_nil] at hseats
      exact ⟨s, .refl, rfl, hseats ▸ hdone, rfl, rfl, rfl⟩
    | cons seat r ih =>
      obtain ⟨b, hrun, hended⟩ := ends_one words callback hseats hsupplied
      obtain ⟨t, hrun', hdue, hall, hnumbers, houtcomes, hexit⟩ :=
        ih (l ++ [{ seat with stage := b.2 }])
        (s.placed l seat r b) (by simp [placed])
        (by simpa using fun other hmember => hmember.elim (hdone other) (· ▸ hended))
        hrunning (hrun.supplied (fun _ => hsupplied) hrunning)
      exact ⟨t, hrun.trans hrun', hdue, hall, hnumbers.trans (by simp [placed, hseats]), houtcomes,
        hexit⟩
  exact hrest [] s.seats s rfl (List.forall_mem_nil _) hrunning hsupplied

/-- Callers that have come to their end can be joined in every order. -/
theorem joins_in_order (q : Nat) (words : String) (callback : Nat → Callback (List Value))
    (s : Hosting) (hall : s.due = [])
    (hdone : ∀ seat ∈ s.seats, seat.stage.Ended) {order : List Nat}
    (hperm : order.Perm (s.seats.map Seat.number)) : ∃ t, Runs q words callback s t ∧
      t.due = [] ∧ t.seats = [] ∧ t.outcomes.map Prod.fst = s.outcomes.map Prod.fst ++ order ∧
      t.exit = s.exit := by
  induction order generalizing s with
  | nil =>
    have hnone : s.seats = [] := List.map_eq_nil_iff.mp hperm.nil_eq.symm
    exact ⟨s, .refl, hall, hnone, (List.append_nil _).symm, rfl⟩
  | cons number order ih =>
    -- Whoever is to be joined next has a seat, and the others keep theirs.
    obtain ⟨seat, hmember, rfl⟩ := List.mem_map.mp (hperm.subset List.mem_cons_self)
    obtain ⟨l, r, hwho⟩ := List.append_of_mem hmember
    obtain ⟨ended, result, hstage⟩ := hdone seat hmember
    have hrest : order.Perm ((l ++ r).map Seat.number) := by
      rw [hwho, List.map_append, List.map_cons] at hperm
      rw [List.map_append]
      exact (hperm.trans List.perm_middle).cons_inv
    obtain ⟨t, hrun, hall', hnone, houtcomes, hexit⟩ := ih (s.join seat.number result (l ++ r)) hall
      (fun other hmember => hdone other (mem_of_beside hwho hmember)) hrest
    refine ⟨t, .head (.joins hall hwho hstage) hrun, hall', hnone, houtcomes.trans ?_, hexit⟩
    simp [join]

/-- Wherever the program is, it can join the callers that have not been joined in every order, and
comes to its end. -/
theorem completes (hrunning : s.exit = none) (hsupplied : s.Supplied q) {order : List Nat}
    (hperm : order.Perm (s.seats.map Seat.number ++ s.due)) :
    ∃ t, Runs q words callback s t ∧ t.exit.isSome ∧
      t.outcomes.map Prod.fst = s.outcomes.map Prod.fst ++ order := by
  obtain ⟨t, hsent, hall, hnumbers, houtcomes, hexit⟩ := sends q words callback s
  have hrunning₁ : t.exit = none := hexit.trans hrunning
  have hsupplied₁ := hsent.supplied (fun _ => hsupplied) hrunning₁
  obtain ⟨u, hended, hdue, hdone, hnumbers₂, houtcomes₂, hexit₂⟩ :=
    ends words callback t hrunning₁ hsupplied₁
  have hperm₂ : order.Perm (u.seats.map Seat.number) := by rwa [hnumbers₂, hnumbers]
  obtain ⟨v, hjoined, hall₃, hnone, houtcomes₃, hexit₃⟩ :=
    joins_in_order q words callback u (hdue.trans hall) hdone hperm₂
  have hlast : v.exit = Option.none := hexit₃.trans (hexit₂.trans hrunning₁)
  refine ⟨v.finish q words, ?_, rfl, houtcomes₃.trans ?_⟩
  · exact ((hsent.trans hended).trans hjoined).tail (.exits hall₃ hnone hlast)
  · rw [houtcomes₂, houtcomes]

end Hosting
end SandboxPool
