import SandboxPool.Proofs.Token.Scopes

/-!
# Two kinds of stores, one behaviour

A store in memory and a store over a table keep different things: the first drops every expired
entry at each take, counts up to the largest 32-bit number and reads nanoseconds; the second lets
expired rows of other scopes stand, counts on, and reads milliseconds of another clock.
`TokenStore.stores_agree` says that no sequence of requests can tell them apart.

The two are tied together by `Matches`: what has not expired in one has not expired in the other,
and deadlines are equally far from the moment at which both clocks were read first.
-/

namespace SandboxPool

/-- Keys with the same text are the same. -/
theorem ScopeKey.eq_of_text {a b : ScopeKey} (h : a.text = b.text) : a = b := by
  cases a
  cases b
  cases h
  rfl

/-! ## The rows of a table -/

namespace ScopeTable

variable {t : ScopeTable} {scope other : ScopeKey} {now : Int}

/-- Each scope has at most one row. -/
def Distinct (t : ScopeTable) : Prop := (t.map ScopeRow.scope).Nodup

theorem Distinct.filter (h : t.Distinct) (keep : ScopeRow → Bool) :
    Distinct (List.filter keep t) := by
  have hsub : ((List.filter keep t).map ScopeRow.scope).Sublist (t.map ScopeRow.scope) :=
    List.filter_sublist.map ScopeRow.scope
  exact List.Nodup.sublist hsub h

theorem row?_filter (h : t.Distinct) (keep : ScopeRow → Bool) (scope : ScopeKey) :
    row? (List.filter keep t) scope = (t.row? scope).filter keep :=
  find?_filter_of_nodup ScopeRow.scope h keep scope.text

theorem scope_of_row? {r : ScopeRow} (h : t.row? scope = some r) : r.scope = scope.text := by
  simpa using List.find?_some h

theorem row?_delete (h : t.Distinct) (scope other : ScopeKey) :
    (t.delete scope).row? other = if other = scope then none else t.row? other := by
  unfold delete
  rw [row?_filter h]
  cases hrow : t.row? other with
  | none => simp
  | some r =>
    have hkey := scope_of_row? hrow
    by_cases hother : other = scope
    · simp [Option.filter, hkey, hother]
    · have hne : other.text ≠ scope.text := fun h => hother (ScopeKey.eq_of_text h)
      simp [Option.filter, hkey, hother, hne]

/-- Only the row of the scope itself goes, and only if it has expired. -/
theorem row?_deleteExpired (h : t.Distinct) (scope other : ScopeKey) (now : Int) :
    (t.deleteExpired scope now).row? other =
      if other = scope then (t.row? scope).filter fun r => now < r.expiresAt
      else t.row? other := by
  unfold deleteExpired
  rw [row?_filter h]
  -- Rows of one scope have one name, so deleting by name touches that row only.
  cases hrow : t.row? other with
  | none =>
    split
    · next hother => rw [← hother, hrow]; rfl
    · rfl
  | some r =>
    have hkey := scope_of_row? hrow
    by_cases hother : other = scope
    · subst hother
      rw [hrow]
      by_cases hlive : now < r.expiresAt
      · simp [Option.filter, hkey, hlive]
      · have hcome : r.expiresAt ≤ now := by omega
        simp [Option.filter, hkey, hlive, hcome]
    · have hne : other.text ≠ scope.text := fun h => hother (ScopeKey.eq_of_text h)
      simp [Option.filter, hkey, hother, hne]

/-- The row of a scope after it was counted, given what was there. -/
def counted (scope : ScopeKey) (expiresAt : Int) (extend : Bool) : Option ScopeRow → ScopeRow
  | none => ⟨scope.text, 1, expiresAt⟩
  | some old => ⟨scope.text, old.count + 1, if extend then expiresAt else old.expiresAt⟩

/-- A table in which the row of each scope stays with its scope. -/
theorem row?_map (f : ScopeRow → ScopeRow) (hf : ∀ r, (f r).scope = r.scope) (t : ScopeTable)
    (scope : ScopeKey) : row? (t.map f) scope = (t.row? scope).map f := by
  unfold row?
  rw [List.find?_map]
  congr 1
  apply congrArg (List.find? · t)
  funext r
  simp [hf]

/-- A scope without a row gets one at the end. -/
theorem upsert_fresh (h : t.Distinct) {scope : ScopeKey} (hrow : t.row? scope = none)
    (expiresAt : Int) : Distinct (t ++ [⟨scope.text, 1, expiresAt⟩]) ∧
      ∀ other, row? (t ++ [⟨scope.text, 1, expiresAt⟩]) other =
        if other = scope then some ⟨scope.text, 1, expiresAt⟩ else t.row? other := by
  -- No row has the name, so the new one is the only one that has it.
  have hfresh : ∀ r ∈ t, r.scope ≠ scope.text := by
    intro r hr
    simpa using List.find?_eq_none.mp hrow r hr
  constructor
  · show ((t ++ [_]).map ScopeRow.scope).Nodup
    rw [List.map_append, List.nodup_append]
    refine ⟨h, List.nodup_singleton _, ?_⟩
    intro a ha b hb hab
    obtain ⟨r, hr, rfl⟩ := List.mem_map.mp ha
    exact hfresh r hr (hab.trans (List.mem_singleton.mp hb))
  · intro other
    show (t ++ [_]).find? _ = _
    rw [List.find?_append]
    by_cases hother : other = scope
    · subst hother
      have hnone : t.find? (fun r => r.scope = other.text) = none := hrow
      simp [hnone]
    · have hne : scope.text ≠ other.text := fun h => hother (ScopeKey.eq_of_text h.symm)
      simp [hother, hne, row?]

/-- A row that takes the place of a scope's old one, under the same scope, changes no other. -/
theorem replace_row (h : t.Distinct) {scope : ScopeKey} {old new : ScopeRow}
    (hrow : t.row? scope = some old) (hnew : new.scope = scope.text) :
    Distinct (t.map fun r => if r.scope = scope.text then new else r) ∧
      ∀ other, row? (t.map fun r => if r.scope = scope.text then new else r) other =
        if other = scope then some new else t.row? other := by
  -- Names stay where they are, and with them the order in which rows are found.
  have hstays : ∀ r : ScopeRow,
      (if r.scope = scope.text then new else r).scope = r.scope := by
    intro r
    split
    · next hr => exact hnew.trans hr.symm
    · rfl
  constructor
  · show ((t.map _).map ScopeRow.scope).Nodup
    rw [List.map_map]
    have hsame : t.map (ScopeRow.scope ∘ fun r => if r.scope = scope.text then new else r) =
        t.map ScopeRow.scope := List.map_congr_left fun r _ => hstays r
    exact hsame ▸ h
  · intro other
    rw [row?_map _ hstays]
    by_cases hother : other = scope
    · subst hother
      rw [hrow, Option.map_some, if_pos (scope_of_row? hrow), if_pos rfl]
    · rw [if_neg hother]
      cases hthere : t.row? other with
      | none => rfl
      | some r =>
        have hne : r.scope ≠ scope.text := by
          rw [scope_of_row? hthere]
          exact fun h => hother (ScopeKey.eq_of_text h)
        rw [Option.map_some, if_neg hne]

/-- Counting a scope changes its row, or adds one, and no other. -/
theorem upsert_eq (h : t.Distinct) (scope : ScopeKey) (expiresAt : Int) (extend : Bool) :
    (t.upsert scope expiresAt extend).1 = (counted scope expiresAt extend (t.row? scope)).count ∧
      (t.upsert scope expiresAt extend).2.Distinct ∧
      ∀ other, (t.upsert scope expiresAt extend).2.row? other =
        if other = scope then some (counted scope expiresAt extend (t.row? scope))
        else t.row? other := by
  unfold upsert
  cases hrow : t.row? scope with
  | none => exact ⟨rfl, upsert_fresh h hrow expiresAt⟩
  | some old => exact ⟨rfl, replace_row h hrow rfl⟩

end ScopeTable

/-! ## Taking from a database -/

namespace DatabaseStore

variable {d : DatabaseStore} {scope : ScopeKey} {ttl : Duration} {now : Int}

/-- The row of a scope, unless it has expired. -/
def live? (d : DatabaseStore) (now : Int) (scope : ScopeKey) : Option ScopeRow :=
  (d.table.row? scope).filter fun r => now < r.expiresAt

/-- The row of a scope after a take. -/
def afterTake (d : DatabaseStore) (scope : ScopeKey) (ttl : Duration) (now : Int) : ScopeRow :=
  ScopeTable.counted scope (deadline now ttl) (d.policy = .extendOnTake) (d.live? now scope)

/-- A take counts its scope's row, or makes one where there is none or it has expired, and lets
the rows of all other scopes stand. -/
theorem take_eq (h : d.table.Distinct) (scope : ScopeKey) (ttl : Duration) (now : Int) :
    (d.take scope ttl now).1 = min (d.afterTake scope ttl now).count InMemoryStore.countLimit ∧
      (d.take scope ttl now).2.policy = d.policy ∧ (d.take scope ttl now).2.table.Distinct ∧
      ∀ other, (d.take scope ttl now).2.table.row? other =
        if other = scope then some (d.afterTake scope ttl now) else d.table.row? other := by
  have hswept : (d.table.deleteExpired scope now).Distinct := h.filter _
  have hlive : (d.table.deleteExpired scope now).row? scope = d.live? now scope := by
    rw [ScopeTable.row?_deleteExpired h, if_pos rfl]
    rfl
  obtain ⟨hcount, hdistinct, hrows⟩ := ScopeTable.upsert_eq hswept scope (deadline now ttl)
    (d.policy = .extendOnTake)
  -- The sweep comes first: what the statement then finds is the row that is still alive.
  rw [hlive] at hcount hrows
  refine ⟨?_, rfl, hdistinct, ?_⟩
  · show min ((d.table.deleteExpired scope now).upsert scope (deadline now ttl) _).1 _ = _
    rw [hcount]
    rfl
  · intro other
    show ((d.table.deleteExpired scope now).upsert scope (deadline now ttl) _).2.row? other = _
    rw [hrows]
    by_cases hother : other = scope
    · rw [if_pos hother, if_pos hother]
      rfl
    · rw [if_neg hother, if_neg hother, ScopeTable.row?_deleteExpired h, if_neg hother]

/-- A take adds at most one to the largest count. -/
theorem afterTake_count_le {takes : Nat} (h : ∀ scope r, d.table.row? scope = some r →
    r.count ≤ takes) (scope : ScopeKey) (ttl : Duration) (now : Int) :
    (d.afterTake scope ttl now).count ≤ takes + 1 := by
  unfold afterTake ScopeTable.counted
  split
  · show 1 ≤ takes + 1
    omega
  · next old hold =>
    have hcount := h scope old (Option.filter_eq_some_iff.mp hold).1
    show old.count + 1 ≤ takes + 1
    omega

/-- A deadline that 64 bits can hold is the exact one. -/
theorem deadline_eq (hnow : 0 ≤ now) (hfits : now + ttl.millis ≤ lastMoment) :
    deadline now ttl = now + ttl.millis := by
  unfold deadline
  omega

end DatabaseStore
/-! ## Both at once -/

/-- What the clocks show some milliseconds later. -/
def Clock.after (origin : Clock) (elapsed : Nat) : Clock :=
  ⟨origin.monotonic + elapsed * 1000000, origin.wall + elapsed⟩

namespace TokenStore

/-- An entry and a row for one thing: the count, which the entry cuts off, and the deadline, the
same number of milliseconds after the clocks were read first. -/
def Matches (origin : Clock) : Option ScopeEntry → Option ScopeRow → Prop :=
  Option.Rel fun e r => e.count = min r.count InMemoryStore.countLimit ∧
    ∃ elapsed, e.deadline = (origin.after elapsed).monotonic ∧
      r.expiresAt = (origin.after elapsed).wall

variable {origin : Clock} {elapsed further : Nat} {e : Option ScopeEntry} {r : Option ScopeRow}
  {policy : TtlPolicy} {scope : ScopeKey} {ttl : Duration}

/-- What matches expires together. -/
theorem Matches.unexpired (h : Matches origin e r) (elapsed : Nat) :
    Matches origin (ScopeEntry.unexpired (origin.after elapsed).monotonic e)
      (r.filter fun r => (origin.after elapsed).wall < r.expiresAt) := by
  cases h with
  | none => exact .none
  | @some e r h =>
    obtain ⟨hcount, deadline, hentry, hrow⟩ := h
    -- Both deadlines lie equally far from the origin, on two clocks that run side by side.
    have hmonotonic : (origin.after elapsed).monotonic < e.deadline ↔ elapsed < deadline := by
      rw [hentry]
      unfold Clock.after
      dsimp only
      omega
    have hwall : (origin.after elapsed).wall < r.expiresAt ↔ elapsed < deadline := by
      rw [hrow]
      unfold Clock.after
      dsimp only
      omega
    by_cases hlive : elapsed < deadline
    · simp only [ScopeEntry.unexpired, Option.filter, hmonotonic, hwall, hlive, decide_true,
        if_true]
      exact .some ⟨hcount, deadline, hentry, hrow⟩
    · simp only [ScopeEntry.unexpired, Option.filter, hmonotonic, hwall, hlive, decide_false,
        Bool.false_eq_true, if_false]
      exact .none

/-- A request that both stores can carry out to the letter: a take lives for whole seconds, at
least one, and neither store cuts its deadline off. -/
def Representable (clock : Clock) : TokenRequest → Prop
  | .take _ ttl =>
    (∃ seconds, 0 < seconds ∧ ttl = .ofSeconds seconds) ∧
      clock.monotonic + ttl.nanoseconds < InMemoryStore.clockEnd ∧
      DatabaseStore.deadline clock.wall ttl = clock.wall + ttl.millis
  | .release _ => True

theorem Representable.timely {clock : Clock} {r : TokenRequest} (h : Representable clock r) :
    Timely clock r := by
  cases r with
  | release scope => exact trivial
  | take scope ttl =>
    obtain ⟨⟨seconds, hpositive, rfl⟩, hclock, -⟩ := h
    refine ⟨?_, hclock⟩
    show 0 < seconds * 1000000000
    omega

/-- From the wall clock's epoch on, a take of whole seconds is carried out to the letter if the
two clocks can count as far as its deadline. -/
theorem representable_ofSeconds {clock : Clock} {seconds : Nat} (hpositive : 0 < seconds)
    (hmonotonic : clock.monotonic + seconds * 1000000000 < InMemoryStore.clockEnd)
    (hepoch : 0 ≤ clock.wall) (hwall : clock.wall + seconds * 1000 ≤ DatabaseStore.lastMoment) :
    Representable clock (.take scope (.ofSeconds seconds)) := by
  refine ⟨⟨seconds, hpositive, rfl⟩, hmonotonic, ?_⟩
  apply DatabaseStore.deadline_eq hepoch
  have hmillis : (Duration.ofSeconds seconds).millis = seconds * 1000 := by
    simp only [Duration.ofSeconds, Duration.millis]
    omega
  rw [hmillis, Int.natCast_mul]
  exact hwall

/-- A take makes of what matches, and has not expired, what matches again. -/
theorem Matches.afterTake (h : Matches origin e r) (policy : TtlPolicy) (scope : ScopeKey)
    (hlive : ∀ e', e = some e' → (origin.after elapsed).monotonic < e'.deadline)
    (hrequest : Representable (origin.after elapsed) (.take scope ttl)) :
    Matches origin
      (some (ScopeEntry.afterTake policy (origin.after elapsed).monotonic ttl e))
      (some (ScopeTable.counted scope (DatabaseStore.deadline (origin.after elapsed).wall ttl)
        (policy = .extendOnTake) r)) := by
  obtain ⟨⟨seconds, -, rfl⟩, -, hexact⟩ := hrequest
  rw [hexact]
  -- the new deadline lies equally far ahead on both clocks
  have hentry : (origin.after elapsed).monotonic + (Duration.ofSeconds seconds).nanoseconds =
      (origin.after (elapsed + seconds * 1000)).monotonic := by
    simp only [Clock.after, Duration.ofSeconds]
    omega
  have hrow : (origin.after elapsed).wall + ((Duration.ofSeconds seconds).millis : Int) =
      (origin.after (elapsed + seconds * 1000)).wall := by
    simp only [Clock.after, Duration.ofSeconds, Duration.millis]
    omega
  cases h with
  | none => exact .some ⟨by simp [InMemoryStore.countLimit, ScopeTable.counted,
      ScopeEntry.afterTake], _, hentry, hrow⟩
  | @some e r h =>
    obtain ⟨hcount, deadline, hdeadline, hexpires⟩ := h
    have hahead : ¬ e.deadline ≤ (origin.after elapsed).monotonic := by
      have := hlive e rfl
      omega
    have hmore : min (e.count + 1) InMemoryStore.countLimit =
        min (r.count + 1) InMemoryStore.countLimit := by
      have hcut : ∀ n limit : Nat, min (min n limit + 1) limit = min (n + 1) limit := by
        intro n limit
        omega
      rw [hcount]
      exact hcut _ _
    unfold ScopeEntry.afterTake ScopeTable.counted
    dsimp only
    rw [if_neg hahead]
    cases policy with
    | extendOnTake => exact .some ⟨hmore, _, hentry, hrow⟩
    | fixedAtFirstTake => exact .some ⟨hmore, deadline, hdeadline, hexpires⟩

/-- A store in memory and a database that cannot be told apart from a moment on. No row of the
database has been counted more than `takes` times. -/
structure Alike (origin : Clock) (elapsed takes : Nat) (m : InMemoryStore) (d : DatabaseStore) :
    Prop where
  memory : m.Distinct
  table : d.table.Distinct
  policy : m.policy = d.policy
  live : ∀ scope, Matches origin (m.live? (origin.after elapsed).monotonic scope)
    (d.live? (origin.after elapsed).wall scope)
  counts : ∀ scope r, d.table.row? scope = some r → r.count ≤ takes

variable {m : InMemoryStore} {d : DatabaseStore} {takes : Nat}

/-- Stores that are alike stay so as time goes by. -/
theorem Alike.later (h : Alike origin elapsed takes m d) (hfurther : elapsed ≤ further) :
    Alike origin further takes m d := by
  refine ⟨h.memory, h.table, h.policy, ?_, h.counts⟩
  intro scope
  have hmonotonic : (origin.after elapsed).monotonic ≤ (origin.after further).monotonic := by
    simp only [Clock.after]
    omega
  have hwall : (origin.after elapsed).wall ≤ (origin.after further).wall := by
    simp only [Clock.after]
    omega
  have hmatches := (h.live scope).unexpired further
  have hrow : ((d.live? (origin.after elapsed).wall scope).filter fun r =>
      (origin.after further).wall < r.expiresAt) = d.live? (origin.after further).wall scope := by
    unfold DatabaseStore.live?
    rw [Option.filter_filter]
    congr 1
    funext r
    by_cases hr : (origin.after further).wall < r.expiresAt
    · have : (origin.after elapsed).wall < r.expiresAt := by omega
      simp [hr, this]
    · simp [hr]
  -- Time passing removes on both sides what expires meanwhile, and nothing else.
  unfold InMemoryStore.live? at hmatches ⊢
  rw [ScopeEntry.unexpired_unexpired hmonotonic, hrow] at hmatches
  exact hmatches

theorem Alike.take (h : Alike origin elapsed takes m d)
    (hrequest : Representable (origin.after elapsed) (.take scope ttl)) :
    ∃ answer m' d', (inMemory m).serve (origin.after elapsed) (.take scope ttl) =
        (answer, inMemory m') ∧
      (database d).serve (origin.after elapsed) (.take scope ttl) = (answer, database d') ∧
      Alike origin elapsed (takes + 1) m' d' := by
  obtain ⟨m', hserve, hpolicy, hdistinct, hlive⟩ := serve_inMemory h.memory hrequest.timely
  obtain ⟨hcount, hpolicy', htable, hrows⟩ := d.take_eq h.table scope ttl
    (origin.after elapsed).wall
  rw [TokenRequest.scope_take] at hserve hlive
  have hmatches : Matches origin
      (some (ScopeEntry.afterTake m.policy (origin.after elapsed).monotonic ttl (m.get? scope)))
      (some (d.afterTake scope ttl (origin.after elapsed).wall)) := by
    rw [← ScopeEntry.afterTake_unexpired, h.policy]
    refine (h.live scope).afterTake d.policy scope ?_ hrequest
    intro e' he'
    simpa using (Option.filter_eq_some_iff.mp he').2
  -- The counts agree because the entries do, and the table caps them at the same limit.
  have hsame : (ScopeEntry.afterTake m.policy (origin.after elapsed).monotonic ttl
      (m.get? scope)).count = (d.take scope ttl (origin.after elapsed).wall).1 := by
    rw [hcount]
    cases hmatches with
    | some hmatches => exact hmatches.1
  refine ⟨_, m', (d.take scope ttl (origin.after elapsed).wall).2, hserve, ?_, ?_⟩
  · show (TokenAnswer.taken (.count (d.take scope ttl (origin.after elapsed).wall).1), _) = _
    rw [← hsame]
    rfl
  · refine ⟨hdistinct, htable, hpolicy.trans (h.policy.trans hpolicy'.symm), ?_, ?_⟩
    · intro other
      rw [hlive other]
      unfold DatabaseStore.live?
      rw [hrows other]
      by_cases hother : other = scope
      · rw [if_pos hother, if_pos hother]
        have hahead := ScopeEntry.lt_deadline_afterTake m.policy (origin.after elapsed).monotonic
          hrequest.timely.1 (m.get? scope)
        have hstays := hmatches.unexpired elapsed
        rw [ScopeEntry.unexpired, Option.filter, if_pos (by simpa using hahead)] at hstays
        exact hstays
      · rw [if_neg hother, if_neg hother]
        exact h.live other
    · intro other r hr
      rw [hrows other] at hr
      split at hr
      · rw [← Option.some.inj hr]
        exact DatabaseStore.afterTake_count_le h.counts _ _ _
      · have := h.counts other r hr
        omega

theorem Alike.release (h : Alike origin elapsed takes m d) (scope : ScopeKey) :
    ∃ m', (inMemory m).serve (origin.after elapsed) (.release scope) =
        (.released (.ok ()), inMemory m') ∧
      Alike origin elapsed takes m' (d.release scope) := by
  have htimely : Timely (origin.after elapsed) (.release scope) := trivial
  obtain ⟨m', hserve, hpolicy, hdistinct, hlive⟩ := serve_inMemory h.memory htimely
  rw [TokenRequest.scope_release] at hserve hlive
  have hrows : ∀ other, (d.release scope).table.row? other =
      if other = scope then none else d.table.row? other :=
    ScopeTable.row?_delete h.table scope
  refine ⟨m', hserve, hdistinct, h.table.filter _, hpolicy.trans h.policy, ?_, ?_⟩
  · intro other
    rw [hlive other]
    unfold DatabaseStore.live?
    rw [hrows other]
    by_cases hother : other = scope
    · rw [if_pos hother, if_pos hother]
      exact .none
    · rw [if_neg hother, if_neg hother]
      exact h.live other
  · intro other r hr
    -- A released scope has no row to have a count.
    rw [hrows other] at hr
    split at hr
    · cases hr
    · exact h.counts other r hr

/-- How many of the requests take. -/
def takesIn (history : List (Nat × TokenRequest)) : Nat :=
  history.countP fun r => r.2 matches .take _ _

theorem takesIn_cons (moment : Nat) (request : TokenRequest) (rest : List (Nat × TokenRequest)) :
    takesIn ((moment, request) :: rest) = takesIn [(moment, request)] + takesIn rest := by
  unfold takesIn
  rw [← List.singleton_append, List.countP_append]

/-- Stores that are alike give one answer to a request, and are alike after it. -/
theorem Alike.serve (h : Alike origin elapsed takes m d) (request : TokenRequest)
    (hrequest : Representable (origin.after elapsed) request) :
    ∃ answer m' d', (inMemory m).serve (origin.after elapsed) request = (answer, inMemory m') ∧
      (database d).serve (origin.after elapsed) request = (answer, database d') ∧
      Alike origin elapsed (takes + takesIn [(elapsed, request)]) m' d' := by
  cases request with
  | take scope ttl => exact h.take hrequest
  | release scope =>
    obtain ⟨m', hserve, halike⟩ := h.release scope
    exact ⟨_, m', d.release scope, hserve, rfl, halike⟩

/-- Requests at moments told in milliseconds since the clocks were read first. -/
def readings (origin : Clock) (history : List (Nat × TokenRequest)) :
    List (Clock × TokenRequest) :=
  history.map fun r => (origin.after r.1, r.2)

/-- Stores that are alike answer any further requests alike. -/
theorem Alike.serveAll (h : Alike origin elapsed takes m d) {history : List (Nat × TokenRequest)}
    (hsorted : history.Pairwise fun a b => a.1 ≤ b.1) (hafter : ∀ r ∈ history, elapsed ≤ r.1)
    (hrequests : ∀ r ∈ history, Representable (origin.after r.1) r.2) :
    ((inMemory m).serveAll (readings origin history)).1 =
        ((database d).serveAll (readings origin history)).1 ∧
      ∃ d', ((database d).serveAll (readings origin history)).2 = database d' ∧
        ∀ scope r, d'.table.row? scope = some r → r.count ≤ takes + takesIn history := by
  induction history generalizing elapsed takes m d with
  | nil => exact ⟨rfl, d, rfl, h.counts⟩
  | cons first rest ih =>
    obtain ⟨moment, request⟩ := first
    rw [List.pairwise_cons] at hsorted
    -- Time passes, one request is served, and the rest goes on from what both have become.
    have hnow : Alike origin moment takes m d := h.later (hafter (moment, request) (.head _))
    obtain ⟨answer, m', d', hmemory, hdatabase, halike⟩ := hnow.serve request
      (hrequests (moment, request) (.head _))
    obtain ⟨hanswers, d'', hfinal, hcounts⟩ := ih halike hsorted.2 hsorted.1
      fun r hr => hrequests r (.tail _ hr)
    have hreadings : readings origin ((moment, request) :: rest) =
        (origin.after moment, request) :: readings origin rest := rfl
    rw [hreadings]
    unfold TokenStore.serveAll
    rw [hmemory, hdatabase]
    refine ⟨?_, d'', hfinal, ?_⟩
    · show (_, answer) :: _ = (_, answer) :: _
      rw [hanswers]
    · intro scope r hr
      have hcount := hcounts scope r hr
      rw [takesIn_cons]
      omega

/-- Let a store in memory and a database both begin without counts and under one policy, and let
requests come at moments that never go back, each take for whole seconds and with a deadline that
both stores can represent. Then the stores give the same answer to every request. The counts that
the database keeps are no higher than the number of takes, so that 64 bits hold them as long as
fewer than 2 ^ 63 tokens are taken. -/
theorem stores_agree (policy : TtlPolicy) (origin : Clock) (history : List (Nat × TokenRequest))
    (hsorted : history.Pairwise fun a b => a.1 ≤ b.1)
    (hrequests : ∀ r ∈ history, Representable (origin.after r.1) r.2) :
    ((inMemory (.empty policy)).serveAll (readings origin history)).1 =
        ((database ⟨policy, []⟩).serveAll (readings origin history)).1 ∧
      ∃ d, ((database ⟨policy, []⟩).serveAll (readings origin history)).2 = database d ∧
        ∀ scope r, d.table.row? scope = some r → r.count ≤ takesIn history := by
  have hempty : Alike origin 0 0 (.empty policy) ⟨policy, []⟩ := by
    refine ⟨InMemoryStore.empty_distinct policy, List.nodup_nil, rfl, fun _ => .none, ?_⟩
    intro scope r hr
    cases hr
  obtain ⟨hanswers, d, hfinal, hcounts⟩ := hempty.serveAll hsorted (fun _ _ => Nat.zero_le _)
    hrequests
  rw [Nat.zero_add] at hcounts
  exact ⟨hanswers, d, hfinal, hcounts⟩

/-- Takes right before a deadline and at the deadline itself, and a release. -/
def boundary : List (Nat × TokenRequest) :=
  [(0, .take scopeA (.ofSeconds 1)), (999, .take scopeA (.ofSeconds 1)),
    (1000, .take scopeA (.ofSeconds 2)), (1001, .release scopeA),
    (1001, .take scopeA (.ofSeconds 1))]

theorem stores_agree_boundary :
    ((inMemory (.empty .fixedAtFirstTake)).serveAll (readings default boundary)).1 =
        ((database ⟨.fixedAtFirstTake, []⟩).serveAll (readings default boundary)).1 ∧
      answersFor scopeA
          ((database ⟨.fixedAtFirstTake, []⟩).serveAll (readings default boundary)).1 =
        [.taken (.count 1), .taken (.count 2), .taken (.count 1), .released (.ok ()),
          .taken (.count 1)] := by
  have hrequests : ∀ r ∈ boundary, Representable ((default : Clock).after r.1) r.2 := by
    intro r hr
    simp only [boundary, List.mem_cons, List.not_mem_nil, or_false] at hr
    rcases hr with rfl | rfl | rfl | rfl | rfl
    · exact representable_ofSeconds (by decide) (by decide) (by decide) (by decide)
    · exact representable_ofSeconds (by decide) (by decide) (by decide) (by decide)
    · exact representable_ofSeconds (by decide) (by decide) (by decide) (by decide)
    · exact trivial
    · exact representable_ofSeconds (by decide) (by decide) (by decide) (by decide)
  exact ⟨(stores_agree .fixedAtFirstTake default boundary (by decide) hrequests).1, by decide⟩

end TokenStore
end SandboxPool
