import Mathlib.Data.List.Nodup
import SandboxPool.Host.TokenStore

/-!
# One scope at a time

An `InMemoryStore` drops expired entries of all scopes whenever any of them takes. Nobody can tell:
what a scope is answered depends on the requests that name it and on nothing else.
`ScopeEntry.serveAll` is a store for a single scope that never drops anything by itself, and
`TokenStore.answers_of_scope` says that a scope of a store in memory is answered as by that one.

What carries the proof is that an entry counts only as long as its deadline lies ahead
(`InMemoryStore.live?`), and that a deadline that has come once stays behind a clock that only
moves forward.
-/

namespace SandboxPool

/-- Among values with different keys, leaving some out leaves the others under their keys. -/
theorem find?_filter_of_nodup {α κ : Type} [DecidableEq κ] (key : α → κ) {l : List α}
    (h : (l.map key).Nodup) (keep : α → Bool) (k : κ) :
    (l.filter keep).find? (fun a => key a = k) = (l.find? fun a => key a = k).filter keep := by
  induction l with
  | nil => rfl
  | cons a rest ih =>
    rw [List.map_cons, List.nodup_cons] at h
    have hrest := ih h.2
    by_cases hkey : key a = k
    · -- the value is the first one, and no later one has its key
      have hnone : (rest.filter keep).find? (fun a => key a = k) = none := by
        rw [List.find?_eq_none]
        intro b hb hbk
        apply h.1
        have hsame : key b = key a := by
          rw [hkey]
          simpa using hbk
        exact hsame ▸ List.mem_map_of_mem (List.mem_filter.mp hb).1
      by_cases hkeep : keep a = true
      · simp [hkeep, hkey, Option.filter]
      · simp [hkeep, hkey, Option.filter, hnone]
    · by_cases hkeep : keep a = true
      · simp [hkeep, hkey, hrest]
      · simp [hkeep, hkey, hrest]

/-- Leaving out what stands under one key leaves everything else under its own. -/
theorem lookup_filter_ne {α κ : Type} [BEq κ] [LawfulBEq κ] [DecidableEq κ] (k other : κ)
    (l : List (κ × α)) :
    (l.filter fun e => e.1 ≠ k).lookup other = if other = k then none else l.lookup other := by
  induction l with
  | nil => exact (ite_self none).symm
  | cons e rest ih =>
    obtain ⟨key, a⟩ := e
    rw [List.filter_cons, List.lookup_cons]
    -- The head is removed or kept, and in both ways it may be what is looked for.
    by_cases hout : key = k
    · subst hout
      rw [if_neg (by simp), ih]
      by_cases hsame : other = key
      · rw [if_pos hsame, if_pos hsame]
      · rw [if_neg hsame, if_neg hsame, beq_false_of_ne hsame]
    · rw [if_pos (by simpa using hout), List.lookup_cons, ih]
      by_cases hsame : other = key
      · subst hsame
        rw [beq_self_eq_true, if_neg hout, if_neg hout]
      · rw [beq_false_of_ne hsame]

/-- What a token store may be asked for. -/
inductive TokenRequest where
  | take (scope : ScopeKey) (ttl : Duration)
  | release (scope : ScopeKey)
  deriving Repr, DecidableEq

/-- The scope that a request names. -/
def TokenRequest.scope : TokenRequest → ScopeKey
  | take scope _ => scope
  | release scope => scope

@[simp] theorem TokenRequest.scope_take (scope : ScopeKey) (ttl : Duration) :
    (take scope ttl).scope = scope := rfl

@[simp] theorem TokenRequest.scope_release (scope : ScopeKey) : (release scope).scope = scope := rfl

/-- What a token store answers. -/
inductive TokenAnswer where
  | taken (result : TakeResult)
  | released (result : Except StoreFault Unit)
  deriving Repr, DecidableEq

namespace TokenStore

/-- What a take of a store in memory is answered. -/
theorem take_inMemory {m m' : InMemoryStore} {scope : ScopeKey} {ttl : Duration} {clock : Clock}
    {n : Nat} (h : m.take? scope ttl clock.monotonic = some (n, m')) :
    (inMemory m).take scope ttl clock = (.count n, inMemory m') := by
  simp only [take, h]

/-- Answers a request when the clocks show `clock`. -/
def serve (s : TokenStore) (clock : Clock) : TokenRequest → TokenAnswer × TokenStore
  | .take scope ttl => (.taken (s.take scope ttl clock).1, (s.take scope ttl clock).2)
  | .release scope => (.released (s.release scope).1, (s.release scope).2)

/-- Answers requests in order, each with the scope it names. -/
def serveAll (s : TokenStore) :
    List (Clock × TokenRequest) → List (ScopeKey × TokenAnswer) × TokenStore
  | [] => ([], s)
  | (clock, r) :: rest =>
    ((r.scope, (s.serve clock r).1) :: ((s.serve clock r).2.serveAll rest).1,
      ((s.serve clock r).2.serveAll rest).2)

/-- The answers to the requests that name a scope. -/
def answersFor (scope : ScopeKey) (answers : List (ScopeKey × TokenAnswer)) : List TokenAnswer :=
  (answers.filter fun a => a.1 = scope).map Prod.snd

/-- Answers are told apart by the scope that was asked about. -/
theorem answersFor_cons (scope key : ScopeKey) (answer : TokenAnswer)
    (answers : List (ScopeKey × TokenAnswer)) :
    answersFor scope ((key, answer) :: answers) =
      if key = scope then answer :: answersFor scope answers else answersFor scope answers := by
  by_cases h : key = scope <;> simp [answersFor, h]

theorem serveAll_append (s : TokenStore) (history more : List (Clock × TokenRequest)) :
    (s.serveAll (history ++ more)).2 = ((s.serveAll history).2.serveAll more).2 := by
  induction history generalizing s with
  | nil => rfl
  | cons first rest ih => exact ih _

end TokenStore

/-! ## The store of a single scope -/

namespace ScopeEntry

/-- The entry after a take at `now`. Without an entry, or with one whose deadline has come, the
count begins at one; else it goes up, and the policy decides whether the deadline moves. -/
def afterTake (policy : TtlPolicy) (now : Nat) (ttl : Duration) : Option ScopeEntry → ScopeEntry
  | none => ⟨1, now + ttl.nanoseconds⟩
  | some old =>
    if old.deadline ≤ now then ⟨1, now + ttl.nanoseconds⟩
    else
      ⟨min (old.count + 1) InMemoryStore.countLimit,
        match policy with
        | .extendOnTake => now + ttl.nanoseconds
        | .fixedAtFirstTake => old.deadline⟩

/-- Answers a request that names the scope; a release forgets it. -/
def serve (policy : TtlPolicy) (now : Nat) :
    TokenRequest → Option ScopeEntry → TokenAnswer × Option ScopeEntry
  | .take _ ttl, entry =>
    (.taken (.count (afterTake policy now ttl entry).count), some (afterTake policy now ttl entry))
  | .release _, _ => (.released (.ok ()), none)

/-- Answers requests that all name one scope. -/
def serveAll (policy : TtlPolicy) : Option ScopeEntry → List (Clock × TokenRequest) →
    List TokenAnswer
  | _, [] => []
  | entry, (clock, r) :: rest =>
    (serve policy clock.monotonic r entry).1 ::
      serveAll policy (serve policy clock.monotonic r entry).2 rest

/-- An entry whose deadline lies ahead. -/
def unexpired (now : Nat) (entry : Option ScopeEntry) : Option ScopeEntry :=
  entry.filter fun e => now < e.deadline

/-- An expired entry is as good as none. -/
theorem afterTake_unexpired (policy : TtlPolicy) (now : Nat) (ttl : Duration)
    (entry : Option ScopeEntry) :
    afterTake policy now ttl (unexpired now entry) = afterTake policy now ttl entry := by
  cases entry with
  | none => rfl
  | some e =>
    by_cases h : now < e.deadline
    · have hlive : unexpired now (some e) = some e := by simp [unexpired, Option.filter, h]
      rw [hlive]
    · have hdead : unexpired now (some e) = none := by simp [unexpired, Option.filter, h]
      have hcome : e.deadline ≤ now := by omega
      rw [hdead]
      simp [afterTake, hcome]

/-- An entry whose deadline has come answers as none would. -/
theorem serve_unexpired (policy : TtlPolicy) (now : Nat) (r : TokenRequest)
    (entry : Option ScopeEntry) :
    serve policy now r (unexpired now entry) = serve policy now r entry := by
  cases r with
  | take scope ttl =>
    show (TokenAnswer.taken (.count (afterTake policy now ttl (unexpired now entry)).count), _) = _
    rw [afterTake_unexpired]
    rfl
  | release scope => rfl

/-- A take leaves a deadline that lies ahead. -/
theorem lt_deadline_afterTake (policy : TtlPolicy) (now : Nat) {ttl : Duration}
    (hpositive : 0 < ttl.nanoseconds) (entry : Option ScopeEntry) :
    now < (afterTake policy now ttl entry).deadline := by
  unfold afterTake
  split
  · show now < now + ttl.nanoseconds
    omega
  · split
    · show now < now + ttl.nanoseconds
      omega
    · cases policy
      · show now < now + ttl.nanoseconds
        omega
      · dsimp only
        omega

/-- What has expired stays expired. -/
theorem unexpired_unexpired {now later : Nat} (h : now ≤ later) (entry : Option ScopeEntry) :
    unexpired later (unexpired now entry) = unexpired later entry := by
  cases entry with
  | none => rfl
  | some e =>
    by_cases hlater : later < e.deadline
    · have hnow : now < e.deadline := by omega
      simp [unexpired, Option.filter, hlater, hnow]
    · by_cases hnow : now < e.deadline <;> simp [unexpired, Option.filter, hlater, hnow]

end ScopeEntry

/-! ## The entries of a store -/

namespace InMemoryStore

variable {s s' : InMemoryStore} {scope other : ScopeKey} {now : Nat} {ttl : Duration}

/-- Each scope has at most one entry. -/
def Distinct (s : InMemoryStore) : Prop := (s.scopes.map Prod.fst).Nodup

/-- The entry of a scope, unless it has expired. -/
def live? (s : InMemoryStore) (now : Nat) (scope : ScopeKey) : Option ScopeEntry :=
  ScopeEntry.unexpired now (s.get? scope)

theorem empty_distinct (policy : TtlPolicy) : (empty policy).Distinct := List.nodup_nil

/-- Leaving entries out keeps scopes apart. -/
theorem Distinct.filter (h : s.Distinct) (keep : ScopeKey × ScopeEntry → Bool) :
    Distinct { s with scopes := s.scopes.filter keep } := by
  have hsub : ((s.scopes.filter keep).map Prod.fst).Sublist (s.scopes.map Prod.fst) :=
    List.filter_sublist.map Prod.fst
  exact List.Nodup.sublist hsub h

theorem Distinct.put (h : s.Distinct) (scope : ScopeKey) (entry : ScopeEntry) :
    (s.put scope entry).Distinct := by
  show ((scope, entry) :: (s.release scope).scopes).map Prod.fst |>.Nodup
  rw [List.map_cons, List.nodup_cons]
  constructor
  · intro hmem
    obtain ⟨e, he, hkey⟩ := List.mem_map.mp hmem
    have hne : e.1 ≠ scope := by simpa using (List.mem_filter.mp he).2
    exact hne hkey
  · exact h.filter _

theorem get?_eq_find? (s : InMemoryStore) (scope : ScopeKey) :
    s.get? scope = (s.scopes.find? fun e => e.1 = scope).map Prod.snd := by
  unfold get?
  induction s.scopes with
  | nil => rfl
  | cons e rest ih =>
    obtain ⟨key, entry⟩ := e
    by_cases h : key = scope
    · simp [h]
    · have hbeq : (scope == key) = false := by simpa using Ne.symm h
      rw [List.lookup_cons, hbeq, ih]
      simp [h]

/-- Leaving entries out leaves what is kept under its scope. -/
theorem get?_filter (h : s.Distinct) (keep : ScopeKey × ScopeEntry → Bool) (scope : ScopeKey) :
    get? { s with scopes := s.scopes.filter keep } scope =
      (s.get? scope).filter fun e => keep (scope, e) := by
  rw [get?_eq_find?, get?_eq_find?, find?_filter_of_nodup Prod.fst h]
  cases hfound : s.scopes.find? fun e => e.1 = scope with
  | none => rfl
  | some e =>
    have hkey : e.1 = scope := by simpa using List.find?_some hfound
    subst hkey
    by_cases hkeep : keep e = true <;> simp [Option.filter, hkeep]

theorem get?_of_mem (h : s.Distinct) {e : ScopeKey × ScopeEntry} (he : e ∈ s.scopes) :
    s.get? e.1 = some e.2 := by
  rw [get?_eq_find?]
  cases hfound : s.scopes.find? fun p => p.1 = e.1 with
  | none =>
    have habsent := List.find?_eq_none.mp hfound e he
    simp at habsent
  | some p =>
    -- of all entries only this one has its key
    have hkey : p.1 = e.1 := by simpa using List.find?_some hfound
    have hsame : p = e := List.inj_on_of_nodup_map h (List.mem_of_find?_eq_some hfound) he hkey
    rw [hsame]
    rfl

/-- A sweep leaves what has not expired. -/
theorem get?_sweep (h : s.Distinct) (now : Nat) (scope : ScopeKey) :
    (s.sweep now).get? scope = s.live? now scope := by
  exact get?_filter h _ scope

/-- Releasing a scope forgets it and nothing else. -/
theorem get?_release (h : s.Distinct) (scope other : ScopeKey) :
    (s.release scope).get? other = if other = scope then none else s.get? other := by
  unfold release
  rw [get?_filter h]
  by_cases hother : other = scope
  · subst hother
    cases s.get? other <;> simp [Option.filter]
  · cases s.get? other <;> simp [Option.filter, hother]

/-- An entry is found under its scope, and the others as before. -/
theorem get?_put (h : s.Distinct) (scope other : ScopeKey) (entry : ScopeEntry) :
    (s.put scope entry).get? other = if other = scope then some entry else s.get? other := by
  have hrest : (s.release scope).scopes.lookup other = if other = scope then none
      else s.get? other := get?_release h scope other
  show ((scope, entry) :: (s.release scope).scopes).lookup other = _
  by_cases hother : other = scope
  · simp [hother]
  · have hbeq : (other == scope) = false := by simpa using hother
    rw [List.lookup_cons, hbeq]
    simp [hrest, hother]

/-! ## Taking -/

/-- A take whose deadline the clock can represent makes the entry that its scope alone would get,
and leaves of the others what has not expired. -/
theorem take?_eq (h : s.Distinct) (scope : ScopeKey) (hclock : now + ttl.nanoseconds < clockEnd) :
    ∃ s', s.take? scope ttl now =
        some ((ScopeEntry.afterTake s.policy now ttl (s.get? scope)).count, s') ∧
      s'.policy = s.policy ∧ s'.Distinct ∧
      ∀ other, s'.get? other =
        if other = scope then some (ScopeEntry.afterTake s.policy now ttl (s.get? scope))
        else s.live? now other := by
  have hswept : (s.sweep now).Distinct := h.filter _
  -- the entry that the code computes from what the sweep has left
  have hentry : ∀ live : Option ScopeEntry,
      (∀ e, live = some e → now < e.deadline) →
      (⟨min ((live.getD ⟨0, now + ttl.nanoseconds⟩).count + 1) countLimit,
        if s.policy = .extendOnTake then now + ttl.nanoseconds
        else (live.getD ⟨0, now + ttl.nanoseconds⟩).deadline⟩ : ScopeEntry) =
        ScopeEntry.afterTake s.policy now ttl live := by
    intro live hlive
    cases live with
    | none => simp [ScopeEntry.afterTake, countLimit]
    | some e =>
      have hahead : ¬ e.deadline ≤ now := by
        have := hlive e rfl
        omega
      cases hpolicy : s.policy <;> simp [ScopeEntry.afterTake, hahead]
  have hahead : ∀ e, (s.sweep now).get? scope = some e → now < e.deadline := by
    intro e he
    rw [get?_sweep h] at he
    simpa using (Option.filter_eq_some_iff.mp he).2
  have hsame := hentry _ hahead
  have hold : ScopeEntry.afterTake s.policy now ttl ((s.sweep now).get? scope) =
      ScopeEntry.afterTake s.policy now ttl (s.get? scope) := by
    rw [get?_sweep h]
    exact ScopeEntry.afterTake_unexpired _ _ _ _
  rw [hold] at hsame
  refine ⟨(s.sweep now).put scope (ScopeEntry.afterTake s.policy now ttl (s.get? scope)), ?_, rfl,
    hswept.put _ _, ?_⟩
  · have hok : ¬ clockEnd ≤ now + ttl.nanoseconds := by omega
    rw [← hsame]
    unfold take?
    rw [if_neg hok]
    rfl
  · intro other
    rw [get?_put hswept, get?_sweep h]

/-- Right after a take every entry's deadline lies ahead. -/
theorem take?_ahead {n : Nat} (h : s.Distinct) (hclock : now + ttl.nanoseconds < clockEnd)
    (hpositive : 0 < ttl.nanoseconds) (htake : s.take? scope ttl now = some (n, s')) :
    ∀ e ∈ s'.scopes, now < e.2.deadline := by
  obtain ⟨s'', htake', -, hdistinct, hget⟩ := take?_eq h scope hclock
  obtain rfl : s'' = s' := by
    rw [htake'] at htake
    exact (Prod.mk.inj (Option.some.inj htake)).2
  intro e he
  have hmem := get?_of_mem hdistinct he
  rw [hget] at hmem
  split at hmem
  · rw [← Option.some.inj hmem]
    exact ScopeEntry.lt_deadline_afterTake _ _ hpositive _
  · simpa using (Option.filter_eq_some_iff.mp hmem).2

end InMemoryStore

/-! ## Many requests -/

namespace TokenStore

/-- A moment at which a store in memory can answer a request: a take has some time to live, and a
deadline that the clock can represent. -/
def Timely (clock : Clock) : TokenRequest → Prop
  | .take _ ttl =>
    0 < ttl.nanoseconds ∧ clock.monotonic + ttl.nanoseconds < InMemoryStore.clockEnd
  | .release _ => True

/-- Requests that a store in memory can answer, at moments that never go back. -/
structure Orderly (history : List (Clock × TokenRequest)) : Prop where
  sorted : history.Pairwise fun a b => a.1.monotonic ≤ b.1.monotonic
  timely : ∀ r ∈ history, Timely r.1 r.2

variable {m : InMemoryStore} {clock : Clock} {r : TokenRequest}
  {history before after : List (Clock × TokenRequest)}

theorem Orderly.left (h : Orderly (before ++ after)) : Orderly before :=
  ⟨(List.pairwise_append.mp h.sorted).1, fun r hr => h.timely r (List.mem_append_left _ hr)⟩

theorem Orderly.tail (h : Orderly ((clock, r) :: history)) : Orderly history :=
  ⟨(List.pairwise_cons.mp h.sorted).2, fun r hr => h.timely r (.tail _ hr)⟩

/-- A request does to its scope what it does to the scope's entry alone, and lets the others keep
what has not expired. -/
theorem serve_inMemory (h : m.Distinct) (htimely : Timely clock r) :
    ∃ m', (inMemory m).serve clock r =
        ((ScopeEntry.serve m.policy clock.monotonic r (m.get? r.scope)).1, inMemory m') ∧
      m'.policy = m.policy ∧ m'.Distinct ∧
      ∀ other, m'.live? clock.monotonic other =
        if other = r.scope then (ScopeEntry.serve m.policy clock.monotonic r (m.get? r.scope)).2
        else m.live? clock.monotonic other := by
  cases r with
  | take scope ttl =>
    obtain ⟨m', htake, hpolicy, hdistinct, hget⟩ := m.take?_eq h scope htimely.2
    have hserve : (inMemory m).take scope ttl clock = (.count
        (ScopeEntry.afterTake m.policy clock.monotonic ttl (m.get? scope)).count, inMemory m') :=
      take_inMemory htake
    have hahead := ScopeEntry.lt_deadline_afterTake m.policy clock.monotonic htimely.1
      (m.get? scope)
    -- The deadline that a take sets lies ahead, so the entry is alive at once.
    refine ⟨m', ?_, hpolicy, hdistinct, ?_⟩
    · show (TokenAnswer.taken ((inMemory m).take scope ttl clock).1, _) = _
      rw [hserve]
      rfl
    · intro other
      unfold InMemoryStore.live?
      rw [hget]
      by_cases hother : other = scope
      · simp [hother, ScopeEntry.serve, ScopeEntry.unexpired, Option.filter, hahead]
      · rw [TokenRequest.scope_take, if_neg hother, if_neg hother]
        exact ScopeEntry.unexpired_unexpired (Nat.le_refl _) _
  | release scope =>
    refine ⟨m.release scope, rfl, rfl, h.filter _, ?_⟩
    intro other
    unfold InMemoryStore.live?
    rw [InMemoryStore.get?_release h]
    by_cases hother : other = scope
    · simp [hother, ScopeEntry.serve, ScopeEntry.unexpired]
    · simp [hother]

/-- As long as an entry stands for what a scope has, the scope is answered as by the entry alone. -/
theorem serveAll_inMemory (now : Nat) (entry : Option ScopeEntry) (scope : ScopeKey)
    (h : m.Distinct) (horderly : Orderly history) (hafter : ∀ r ∈ history, now ≤ r.1.monotonic)
    (hentry : m.live? now scope = ScopeEntry.unexpired now entry) :
    (∃ m', ((inMemory m).serveAll history).2 = inMemory m' ∧ m'.Distinct) ∧
      answersFor scope ((inMemory m).serveAll history).1 =
        ScopeEntry.serveAll m.policy entry (history.filter fun r => r.2.scope = scope) := by
  induction history generalizing m entry now with
  | nil => exact ⟨⟨m, rfl, h⟩, rfl⟩
  | cons first rest ih =>
    obtain ⟨clock, r⟩ := first
    obtain ⟨m', hserve, hpolicy, hdistinct, hlive⟩ := serve_inMemory h (horderly.timely _ (.head _))
    have hnow : now ≤ clock.monotonic := hafter _ (.head _)
    have hlater : ∀ r ∈ rest, clock.monotonic ≤ r.1.monotonic :=
      (List.pairwise_cons.mp horderly.sorted).1
    -- what agreed at `now` agrees when the clock has moved on
    have hentry' : m.live? clock.monotonic scope = ScopeEntry.unexpired clock.monotonic entry := by
      have hsame := congrArg (ScopeEntry.unexpired clock.monotonic) hentry
      unfold InMemoryStore.live? at hsame
      rw [ScopeEntry.unexpired_unexpired hnow, ScopeEntry.unexpired_unexpired hnow] at hsame
      exact hsame
    have hstands : ∀ entry', m'.live? clock.monotonic scope = entry' →
        m'.live? clock.monotonic scope = ScopeEntry.unexpired clock.monotonic entry' := by
      intro entry' heq
      rw [← heq]
      exact (ScopeEntry.unexpired_unexpired (Nat.le_refl _) _).symm
    unfold serveAll
    rw [hserve]
    by_cases hscope : r.scope = scope
    · -- the entry alone answers as the store does, since both see the same unexpired entry
      have hsame : ScopeEntry.serve m.policy clock.monotonic r (m.get? r.scope) =
          ScopeEntry.serve m.policy clock.monotonic r entry := by
        rw [← ScopeEntry.serve_unexpired, hscope, ← ScopeEntry.serve_unexpired _ _ _ entry]
        exact congrArg _ hentry'
      have hnext := hlive scope
      rw [if_pos hscope.symm, hsame] at hnext
      obtain ⟨hfinal, hanswers⟩ := ih _ _ hdistinct horderly.tail hlater (hstands _ hnext)
      refine ⟨hfinal, ?_⟩
      rw [answersFor_cons, if_pos hscope, hanswers, hsame, hpolicy, List.filter_cons,
        if_pos (decide_eq_true hscope)]
      rfl
    · have hnext := hlive scope
      rw [if_neg (Ne.symm hscope), hentry'] at hnext
      obtain ⟨hfinal, hanswers⟩ := ih _ _ hdistinct horderly.tail hlater hnext
      refine ⟨hfinal, ?_⟩
      rw [answersFor_cons, if_neg hscope, hanswers, hpolicy, List.filter_cons,
        if_neg (by simpa using hscope)]

/-- Let requests come at moments that never go back, each take with a positive time to live and a
deadline that the clock can represent. Then a store in memory answers the requests that name a
scope as the scope's entry alone would, which sees no other requests; so histories with the same
requests for a scope have the same answers for it. And right after a take no entry has a deadline
that has come. -/
theorem answers_of_scope (policy : TtlPolicy) (history : List (Clock × TokenRequest))
    (horderly : Orderly history) :
    (∀ scope, answersFor scope ((inMemory (.empty policy)).serveAll history).1 =
      ScopeEntry.serveAll policy none (history.filter fun r => r.2.scope = scope)) ∧
    (∀ scope other, Orderly other →
      (other.filter fun r => r.2.scope = scope) = (history.filter fun r => r.2.scope = scope) →
      answersFor scope ((inMemory (.empty policy)).serveAll other).1 =
        answersFor scope ((inMemory (.empty policy)).serveAll history).1) ∧
    ∀ before clock scope ttl after, history = before ++ (clock, .take scope ttl) :: after →
      ∃ m, ((inMemory (.empty policy)).serveAll (before ++ [(clock, .take scope ttl)])).2 =
          inMemory m ∧ ∀ e ∈ m.scopes, clock.monotonic < e.2.deadline := by
  have hrun : ∀ {history : List (Clock × TokenRequest)} (scope : ScopeKey), Orderly history → _ :=
    fun scope h => serveAll_inMemory 0 none scope (InMemoryStore.empty_distinct policy) h
      (fun _ _ => Nat.zero_le _) rfl
  -- Answers are a function of what the scope was asked, so equal requests have equal answers.
  refine ⟨fun scope => (hrun scope horderly).2, ?_, ?_⟩
  · intro scope other hother hsame
    rw [(hrun scope hother).2, (hrun scope horderly).2, hsame]
  · intro before clock scope ttl after hhistory
    subst hhistory
    obtain ⟨⟨m, hbefore, hdistinct⟩, -⟩ := hrun scope horderly.left
    obtain ⟨hpositive, hclock⟩ := horderly.timely (clock, .take scope ttl) (by simp)
    obtain ⟨m', htake, -⟩ := m.take?_eq hdistinct scope hclock
    refine ⟨m', ?_, m.take?_ahead hdistinct hclock hpositive htake⟩
    rw [serveAll_append, hbefore]
    exact congrArg Prod.snd (take_inMemory htake)

/-- A scope with a short name. -/
def scopeA : ScopeKey := ⟨"a", rfl⟩

/-- Another one. -/
def scopeB : ScopeKey := ⟨"b", rfl⟩

/-- Two scopes take in turn; the second one takes at 10, when the first has expired. -/
def crossing : List (Clock × TokenRequest) :=
  [(⟨0, 0⟩, .take scopeA ⟨5⟩), (⟨3, 0⟩, .take scopeB ⟨100⟩), (⟨4, 0⟩, .take scopeA ⟨5⟩),
    (⟨10, 0⟩, .take scopeB ⟨100⟩), (⟨12, 0⟩, .take scopeA ⟨5⟩), (⟨13, 0⟩, .release scopeB)]

/-- Two scopes are asked about by turns, and each counts for itself. -/
theorem answers_of_scope_crossing : Orderly crossing ∧
    answersFor scopeA ((inMemory (.empty .fixedAtFirstTake)).serveAll crossing).1 =
      [.taken (.count 1), .taken (.count 2), .taken (.count 1)] := by
  have horderly : Orderly crossing := by
    refine ⟨by decide, ?_⟩
    intro r hr
    simp only [crossing, List.mem_cons, List.not_mem_nil, or_false] at hr
    rcases hr with rfl | rfl | rfl | rfl | rfl | rfl <;> simp [Timely, InMemoryStore.clockEnd]
  refine ⟨horderly, ?_⟩
  rw [(answers_of_scope .fixedAtFirstTake crossing horderly).1]
  decide

end TokenStore
end SandboxPool
