import SandboxPool.Proofs.Host.Takes
import SandboxPool.Proofs.Token.Agreement

/-!
# Deadlines beyond the clock

A time to live may be as long as 64 bits can say, which is longer than any clock has left. A
database cuts such a deadline off at the last moment it can write down and counts the take; a
store in memory adds the time to live to the moment whether it needs the sum or not, and panics if
its clock has no such moment. `TokenStore.take_by_deadline` says which of the two happens, for
every time to live that is accepted, every clock and every store.
-/

namespace SandboxPool

/-- What a time to live that was accepted comes to. -/
theorem ttlOfSeconds_eq_ok {seconds : Int64} {ttl : Duration} :
    ttlOfSeconds seconds = .ok ttl ↔ 0 < seconds.toInt ∧ ttl = .ofSeconds seconds.toInt.toNat := by
  have hpositive : 0 < seconds ↔ 0 < seconds.toInt := Int64.lt_iff_toInt_lt
  unfold ttlOfSeconds
  rw [← hpositive]
  split
  · next hlasting =>
    refine ⟨fun hsame => ⟨hlasting, (Except.ok.inj hsame).symm⟩, ?_⟩
    rintro ⟨-, rfl⟩
    rfl
  · next hshort => exact ⟨nofun, fun hlasting => absurd hlasting.1 hshort⟩

/-- The deadline of a scope after a take, by the deadline it had if it was alive and the one that
the take brings. -/
def TtlPolicy.settled {α : Type} : TtlPolicy → Option α → α → α
  | .fixedAtFirstTake, some old, _ => old
  | _, _, new => new

/-! ## A database -/

namespace DatabaseStore

variable {d : DatabaseStore} {scope : ScopeKey} {ttl : Duration} {now : Int} {seconds : Nat}

theorem deadline_le (now : Int) (ttl : Duration) : deadline now ttl ≤ lastMoment :=
  Int.min_le_right _ _

/-- From the wall clock's epoch on, a deadline is the exact one or the last moment. -/
theorem deadline_ofSeconds (hepoch : 0 ≤ now) :
    deadline now (.ofSeconds seconds) = min (now + 1000 * seconds) lastMoment := by
  have hmillis : (Duration.ofSeconds seconds).millis = 1000 * seconds := by
    simp only [Duration.ofSeconds, Duration.millis]
    omega
  unfold deadline
  rw [hmillis]
  omega

/-- A deadline lies ahead, unless the clock shows its last moment. -/
theorem lt_deadline (hlasting : 0 < seconds) (hearly : now < lastMoment) :
    now < deadline now (.ofSeconds seconds) := by
  have hmillis : 0 < (Duration.ofSeconds seconds).millis := by
    simp only [Duration.ofSeconds, Duration.millis]
    omega
  -- what is added is cut off as well, but never to nothing
  have hpositive : 0 < min ((Duration.ofSeconds seconds).millis : Int) lastMoment := by
    unfold lastMoment
    omega
  unfold deadline
  omega

/-- The deadline after a take is the one that the policy settles on. -/
theorem afterTake_expiresAt (d : DatabaseStore) (scope : ScopeKey) (ttl : Duration) (now : Int) :
    (d.afterTake scope ttl now).expiresAt =
      d.policy.settled ((d.live? now scope).map ScopeRow.expiresAt) (deadline now ttl) := by
  unfold afterTake ScopeTable.counted
  cases d.live? now scope with
  | none => cases d.policy <;> rfl
  | some old => cases d.policy <;> rfl

theorem afterTake_count_pos (d : DatabaseStore) (scope : ScopeKey) (ttl : Duration) (now : Int) :
    0 < (d.afterTake scope ttl now).count := by
  unfold afterTake ScopeTable.counted
  split
  · exact Nat.one_pos
  · exact Nat.succ_pos _

/-- A take is counted, whatever its time to live. -/
theorem take_counted (hdistinct : d.table.Distinct) (scope : ScopeKey) (ttl : Duration)
    (now : Int) :
    0 < (d.take scope ttl now).1 ∧ (d.take scope ttl now).1 ≤ InMemoryStore.countLimit ∧
      ∃ row, (d.take scope ttl now).2.table.row? scope = some row ∧ row.expiresAt =
        d.policy.settled ((d.live? now scope).map ScopeRow.expiresAt) (deadline now ttl) := by
  obtain ⟨hcounts, -, -, hrows⟩ := d.take_eq hdistinct scope ttl now
  have hsome_left := d.afterTake_count_pos scope ttl now
  rw [hcounts]
  refine ⟨?_, Nat.min_le_right _ _, _, (hrows scope).trans (if_pos rfl),
    d.afterTake_expiresAt scope ttl now⟩
  unfold InMemoryStore.countLimit
  omega

end DatabaseStore

/-! ## A store in memory -/

/-- So it is in memory, where time is counted finer. -/
theorem ScopeEntry.afterTake_deadline (policy : TtlPolicy) (now : Nat) (ttl : Duration)
    (entry : Option ScopeEntry) :
    (afterTake policy now ttl entry).deadline =
      policy.settled ((unexpired now entry).map deadline) (now + ttl.nanoseconds) := by
  rw [← afterTake_unexpired]
  cases halive : unexpired now entry with
  | none => cases policy <;> rfl
  | some old =>
    have hahead : ¬ old.deadline ≤ now := by
      simpa using (Option.filter_eq_some_iff.mp halive).2
    simp only [afterTake, if_neg hahead]
    cases policy <;> rfl

theorem ScopeEntry.afterTake_count_pos (policy : TtlPolicy) (now : Nat) (ttl : Duration)
    (entry : Option ScopeEntry) : 0 < (afterTake policy now ttl entry).count := by
  unfold afterTake
  split
  · exact Nat.one_pos
  · split
    · exact Nat.one_pos
    · show 0 < min _ InMemoryStore.countLimit
      unfold InMemoryStore.countLimit
      omega

namespace TokenStore

variable {m : InMemoryStore} {scope : ScopeKey} {ttl : Duration} {clock : Clock}

/-- A take whose deadline the clock has is counted. -/
theorem take_within (hdistinct : m.Distinct) (scope : ScopeKey)
    (hwithin : clock.monotonic + ttl.nanoseconds < InMemoryStore.clockEnd) :
    ∃ n m' entry, (inMemory m).take scope ttl clock = (.count n, inMemory m') ∧
      0 < n ∧ n ≤ InMemoryStore.countLimit ∧ m'.get? scope = some entry ∧
      entry.deadline =
        m.policy.settled ((m.live? clock.monotonic scope).map ScopeEntry.deadline)
          (clock.monotonic + ttl.nanoseconds) := by
  obtain ⟨m', htaken, -, -, hentries⟩ := m.take?_eq hdistinct scope hwithin
  exact ⟨_, m', _, take_inMemory htaken, ScopeEntry.afterTake_count_pos _ _ _ _,
    InMemoryStore.take?_count_le htaken, (hentries scope).trans (if_pos rfl),
    ScopeEntry.afterTake_deadline _ _ _ _⟩

/-- A take whose deadline the clock does not have is a panic and counts nothing. -/
theorem take_beyond (m : InMemoryStore) (scope : ScopeKey)
    (hbeyond : InMemoryStore.clockEnd ≤ clock.monotonic + ttl.nanoseconds) :
    (inMemory m).take scope ttl clock =
      (.panic InMemoryStore.overflowPanic, inMemory m) := by
  have hnone : m.take? scope ttl clock.monotonic = none := InMemoryStore.take?_eq_none.mpr hbeyond
  simp only [take, hnone]

/-- Let a time to live be accepted. Then every database counts a take, and its scope's deadline is
the one that the policy keeps, or the new one, cut off at the last moment. A store in memory counts
a take exactly if its clock can represent the sum of the moment and the time to live. If not, then
the take ends in a panic and changes no scope, under either policy and whether or not the scope is
alive with a deadline that would have stayed. -/
theorem take_by_deadline {seconds : Int64} {ttl : Duration}
    (haccepted : ttlOfSeconds seconds = .ok ttl) (scope : ScopeKey) (clock : Clock) :
    (∀ d : DatabaseStore, d.table.Distinct →
      ∃ n d' row, (database d).take scope ttl clock = (.count n, database d') ∧
        0 < n ∧ n ≤ InMemoryStore.countLimit ∧ d'.table.row? scope = some row ∧
        row.expiresAt = d.policy.settled ((d.live? clock.wall scope).map ScopeRow.expiresAt)
          (DatabaseStore.deadline clock.wall ttl)) ∧
    (DatabaseStore.deadline clock.wall ttl ≤ DatabaseStore.lastMoment ∧
      (clock.wall < DatabaseStore.lastMoment →
        clock.wall < DatabaseStore.deadline clock.wall ttl) ∧
      (0 ≤ clock.wall → DatabaseStore.deadline clock.wall ttl =
        min (clock.wall + 1000 * seconds.toInt) DatabaseStore.lastMoment)) ∧
    ∀ m : InMemoryStore, m.Distinct →
      if clock.monotonic + seconds.toInt.toNat * 1000000000 < InMemoryStore.clockEnd then
        ∃ n m' entry, (inMemory m).take scope ttl clock = (.count n, inMemory m') ∧
          0 < n ∧ n ≤ InMemoryStore.countLimit ∧ m'.get? scope = some entry ∧
          entry.deadline =
            m.policy.settled ((m.live? clock.monotonic scope).map ScopeEntry.deadline)
              (clock.monotonic + seconds.toInt.toNat * 1000000000)
      else
        ∃ m', (inMemory m).take scope ttl clock =
            (.panic InMemoryStore.overflowPanic, inMemory m') ∧
          ∀ other, m'.live? clock.monotonic other = m.live? clock.monotonic other := by
  obtain ⟨hlasting, rfl⟩ := ttlOfSeconds_eq_ok.mp haccepted
  have hsome_seconds : 0 < seconds.toInt.toNat := by omega
  refine ⟨?_, ⟨DatabaseStore.deadline_le _ _, DatabaseStore.lt_deadline hsome_seconds, ?_⟩, ?_⟩
  · intro d hdistinct
    obtain ⟨hpositive, hsmall, row, hthere, hexpires⟩ :=
      d.take_counted hdistinct scope (.ofSeconds seconds.toInt.toNat) clock.wall
    exact ⟨_, _, row, rfl, hpositive, hsmall, hthere, hexpires⟩
  · intro hepoch
    rw [DatabaseStore.deadline_ofSeconds hepoch, Int.toNat_of_nonneg hlasting.le]
  · intro m hdistinct
    split
    · next hwithin => exact take_within hdistinct scope hwithin
    · next hbeyond => exact ⟨m, take_beyond m scope (not_lt.mp hbeyond), fun _ => rfl⟩

/-- A scope that was taken once and lives for another hour, in memory. -/
def lively : InMemoryStore := ⟨.fixedAtFirstTake, [(scopeA, ⟨1, 3601000000000⟩)]⟩

/-- The same scope in a database. -/
def livelyRows : DatabaseStore := ⟨.fixedAtFirstTake, [⟨scopeA.text, 1, 1700003600000⟩]⟩

/-- The longest time-to-live there is panics in memory, and the other scopes keep their entries. -/
theorem take_by_deadline_longest :
    ttlOfSeconds 9223372036854775807 = .ok (.ofSeconds 9223372036854775807) ∧
      ∃ m', (inMemory lively).take scopeA (.ofSeconds 9223372036854775807) default =
          (.panic InMemoryStore.overflowPanic, inMemory m') ∧
        ∀ other, m'.live? (default : Clock).monotonic other =
          lively.live? (default : Clock).monotonic other := by
  have haccepted :
      ttlOfSeconds 9223372036854775807 = .ok (.ofSeconds 9223372036854775807) := by decide
  have hdistinct : lively.Distinct := by
    unfold InMemoryStore.Distinct
    decide
  have hanswer := (take_by_deadline haccepted scopeA default).2.2 lively hdistinct
  rw [if_neg (by decide)] at hanswer
  exact ⟨haccepted, hanswer⟩

/-- The scope is alive and its deadline stays, but the take panics all the same; the database
counts it. -/
theorem lively_panics :
    ((inMemory lively).take scopeA (.ofSeconds 9223372036854775807) default).1 =
        .panic InMemoryStore.overflowPanic ∧
      ((database livelyRows).take scopeA (.ofSeconds 9223372036854775807) default).1 =
        .count 2 ∧
      (DatabaseStore.take livelyRows scopeA (.ofSeconds 9223372036854775807)
        (default : Clock).wall).2.table = [⟨scopeA.text, 2, 1700003600000⟩] := by
  decide

end TokenStore
end SandboxPool
