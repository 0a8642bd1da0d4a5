import SandboxPool.Proofs.Host.Upserts
import SandboxPool.Proofs.Token.Scopes

/-!
# Tokens that guests take and release

A guest names a scope by a string in its memory and, for a take, says how long it shall live. The
string is read first, then come the scope, the time to live and the caller's own scope
(`Tokens.Refused` says what each of them may find), and only then the store is asked. So a request
that is refused has done nothing at all, and one that is not is a single take or release of the
scope whose key is that string, letter by letter.
-/

namespace SandboxPool

/-! ## Stores by name -/

namespace Services

variable {name other : String}

/-- A store that the services know is found as it was left. -/
theorem store_setStore_self {s : Services} (hknown : find? name s.stores ≠ none)
    (store : TokenStore) : (s.setStore name store).store name = store := by
  unfold Services.store setStore
  dsimp only
  rw [find?_replace_self]
  cases hthere : find? name s.stores with
  | none => exact absurd hthere hknown
  | some old => rfl

/-- The other stores are left as they were. -/
theorem store_setStore_other (hapart : other ≠ name) (s : Services) (store : TokenStore) :
    (s.setStore name store).store other = s.store other := by
  unfold Services.store setStore
  dsimp only
  rw [find?_replace_other hapart]

/-- A store in memory is one that somebody set up. -/
theorem known_of_inMemory {s : Services} {m : InMemoryStore} (hthere : s.store name = .inMemory m) :
    find? name s.stores ≠ none := by
  intro hunknown
  unfold Services.store at hthere
  rw [hunknown] at hthere
  cases hthere

end Services

namespace InMemoryStore

variable {m m' : InMemoryStore} {scope : ScopeKey} {ttl : Duration} {now count : Nat}

/-- Only a deadline that the clock cannot represent keeps a take from a count. -/
theorem take?_eq_none : m.take? scope ttl now = none ↔ clockEnd ≤ now + ttl.nanoseconds := by
  unfold take?
  dsimp only
  split
  · next hbeyond => exact ⟨fun _ => hbeyond, fun _ => rfl⟩
  · next hwithin => exact ⟨nofun, fun hbeyond => absurd hbeyond hwithin⟩

/-- No take brings a count beyond the limit. -/
theorem take?_count_le (htaken : m.take? scope ttl now = some (count, m')) :
    count ≤ countLimit := by
  unfold take? at htaken
  dsimp only at htaken
  split at htaken
  · cases htaken
  · cases htaken
    exact Nat.min_le_right _ _

/-- Releasing a scope forgets that one and no other. -/
theorem get?_release_any (m : InMemoryStore) (scope other : ScopeKey) :
    (m.release scope).get? other = if other = scope then none else m.get? other :=
  lookup_filter_ne scope other m.scopes

end InMemoryStore

/-- The clock will not end within the longest time that a guest can name. -/
def Clock.HasTime (clock : Clock) : Prop :=
  clock.monotonic + 2 ^ 31 * 1000000000 ≤ InMemoryStore.clockEnd

/-- A time to live in seconds, as a guest gives it. -/
def Duration.ofGuest (seconds : Int32) : Duration := .ofSeconds seconds.toInt.toNat

/-- A clock that has time left can count any time-to-live that a guest can name. -/
theorem Clock.HasTime.fits {clock : Clock} (htime : clock.HasTime) (seconds : Int32) :
    clock.monotonic + (Duration.ofGuest seconds).nanoseconds < InMemoryStore.clockEnd := by
  have hshort := seconds.toInt_lt
  unfold HasTime at htime
  show clock.monotonic + seconds.toInt.toNat * 1000000000 < _
  omega

/-- A time-to-live is accepted if it is positive. -/
theorem ttlOfSeconds_eq (seconds : Int32) :
    ttlOfSeconds seconds.toInt64 =
      if 0 < seconds then .ok (.ofGuest seconds) else .error (.badTtl seconds.toInt64) := by
  have hpositive : 0 < seconds.toInt64 ↔ 0 < seconds := by
    rw [Int64.lt_iff_toInt_lt, Int32.lt_iff_toInt_lt, Int32.toInt_toInt64]
    rfl
  have hlength : seconds.toInt64.toNatClampNeg = seconds.toInt.toNat := by
    rw [Int64.toNatClampNeg, Int32.toInt_toInt64]
  unfold ttlOfSeconds
  simp only [hpositive, hlength]
  rfl

namespace Tokens

/-! ## What keeps a request from the store -/

/-- A guest pointer names a scope: the string there is its key. -/
def Names (layout : StringLayout) (memory : Memory) (pointer : Int32) (scope : ScopeKey) : Prop :=
  layout.decode memory pointer = .ok scope.text

/-- Why a request fails before the store is asked: the first of these that applies. A take comes
with a time to live, a release without, and the caller's scope has fired or not. -/
inductive Refused (layout : StringLayout) (memory : Memory) (pointer : Int32) (ttl : Option Int32)
    (fired : Bool) : Failure → Prop where
  | unreadable {e} (hbroken : layout.decode memory pointer = .error e) :
      Refused layout memory pointer ttl fired e
  | blank {text} (hread : layout.decode memory pointer = .ok text)
      (hblank : Text.isBlank text = true) :
      Refused layout memory pointer ttl fired
        (StoreFault.badScope "scope must not be blank").toFailure
  | badTtl {scope seconds} (hnamed : Names layout memory pointer scope)
      (hasked : ttl = some seconds) (hshort : ¬ 0 < seconds) :
      Refused layout memory pointer ttl fired (StoreFault.badTtl seconds.toInt64).toFailure
  | cancelled {scope} (hnamed : Names layout memory pointer scope)
      (hlasting : ∀ seconds, ttl = some seconds → 0 < seconds) (hheld : fired = true) :
      Refused layout memory pointer ttl fired Cause.cancelled

/-- Nothing keeps a request about `scope` from the store. -/
structure Proper (layout : StringLayout) (memory : Memory) (pointer : Int32) (ttl : Option Int32)
    (fired : Bool) (scope : ScopeKey) : Prop where
  named : Names layout memory pointer scope
  lasting : ∀ seconds, ttl = some seconds → 0 < seconds
  unfired : fired = false

variable {layout : StringLayout} {memory : Memory} {pointer : Int32} {ttl : Option Int32}
  {fired : Bool} {failure : Failure} {scope : ScopeKey} {seconds : Int32}

/-- Either there is a reason to fail, or the request is proper. -/
theorem refused_or_proper (layout : StringLayout) (memory : Memory) (pointer : Int32)
    (ttl : Option Int32) (fired : Bool) :
    (∃ failure, Refused layout memory pointer ttl fired failure) ∨
      ∃ scope, Proper layout memory pointer ttl fired scope := by
  cases hread : layout.decode memory pointer with
  | error e => exact .inl ⟨e, .unreadable hread⟩
  | ok text =>
    cases hblank : Text.isBlank text with
    | true => exact .inl ⟨_, .blank hread hblank⟩
    | false =>
      have hnamed : Names layout memory pointer ⟨text, hblank⟩ := hread
      by_cases hlasting : ∀ seconds, ttl = some seconds → 0 < seconds
      · cases fired with
        | true => exact .inl ⟨_, .cancelled hnamed hlasting rfl⟩
        | false => exact .inr ⟨_, hnamed, hlasting, rfl⟩
      · obtain ⟨seconds, hasked⟩ := not_forall.mp hlasting
        obtain ⟨hgiven, hshort⟩ := Classical.not_imp.mp hasked
        exact .inl ⟨_, .badTtl hnamed hgiven hshort⟩

/-! ## Reading the request -/

/-- The arguments of a request. -/
def arguments (pointer : Int32) : Option Int32 → List Value
  | some seconds => [.i32 pointer, .i32 seconds]
  | none => [.i32 pointer]

/-- Carries a request out: a take if it comes with a time to live, else a release. -/
def perform (store : String) (layout : StringLayout) (memory : Memory) (pointer : Int32)
    (ttl : Option Int32) (h : HostState) : HostReply × HostState :=
  match ttl with
  | some _ => take store layout memory (arguments pointer ttl) h
  | none => release store layout memory (arguments pointer ttl) h

theorem scopeAt_eq (layout : StringLayout) (memory : Memory) (pointer : Int32)
    (rest : List Value) :
    scopeAt layout memory (.i32 pointer :: rest) =
      (layout.decode memory pointer).bind fun text =>
        (ScopeKey.parse text).mapError StoreFault.toFailure := rfl

theorem request_eq (layout : StringLayout) (memory : Memory) (pointer seconds : Int32) :
    request layout memory (arguments pointer (some seconds)) =
      (scopeAt layout memory (arguments pointer (some seconds))).bind fun scope =>
        ((ttlOfSeconds seconds.toInt64).mapError StoreFault.toFailure).map fun ttl =>
          (scope, ttl) := by
  rfl

theorem scopeAt_of_names (hnamed : Names layout memory pointer scope) (rest : List Value) :
    scopeAt layout memory (.i32 pointer :: rest) = .ok scope := by
  rw [scopeAt_eq, show layout.decode memory pointer = .ok scope.text from hnamed]
  show (ScopeKey.parse scope.text).mapError _ = _
  rw [ScopeKey.parse, dif_pos scope.not_blank]
  rfl

/-- A name that cannot be read is refused for the reason that the reader gives. -/
theorem scopeAt_of_unreadable {e : Failure} (hbroken : layout.decode memory pointer = .error e)
    (rest : List Value) : scopeAt layout memory (.i32 pointer :: rest) = .error e := by
  rw [scopeAt_eq, hbroken]
  rfl

/-- A name that is blank is refused as a bad scope. -/
theorem scopeAt_of_blank {text : String} (hread : layout.decode memory pointer = .ok text)
    (hblank : Text.isBlank text = true) (rest : List Value) :
    scopeAt layout memory (.i32 pointer :: rest) =
      .error (StoreFault.badScope "scope must not be blank").toFailure := by
  rw [scopeAt_eq, hread]
  show (ScopeKey.parse text).mapError _ = _
  rw [ScopeKey.parse, dif_neg (by simp [hblank])]
  rfl

/-- With a good name it is the time-to-live that decides. -/
theorem request_of_names (hnamed : Names layout memory pointer scope) (seconds : Int32) :
    request layout memory (arguments pointer (some seconds)) =
      if 0 < seconds then .ok (scope, .ofGuest seconds)
      else .error (StoreFault.badTtl seconds.toInt64).toFailure := by
  rw [request_eq, arguments, scopeAt_of_names hnamed, ttlOfSeconds_eq]
  by_cases hpositive : 0 < seconds
  · rw [if_pos hpositive, if_pos hpositive]
    rfl
  · rw [if_neg hpositive, if_neg hpositive]
    rfl

/-! ## Carrying it out -/

variable {store : String} {h : HostState}

/-- A request whose scope cannot be read fails for that. -/
theorem perform_of_scopeAt {e : Failure}
    (hfails : ∀ rest, scopeAt layout memory (.i32 pointer :: rest) = .error e) :
    perform store layout memory pointer ttl h = (.failed e, h) := by
  cases ttl with
  | some seconds =>
    show take store layout memory (arguments pointer (some seconds)) h = _
    unfold take
    rw [request_eq, arguments, hfails]
    rfl
  | none =>
    show release store layout memory (arguments pointer none) h = _
    unfold release
    rw [arguments, hfails]

/-- A request that is refused does nothing. -/
theorem perform_of_refused (store : String)
    (hrefused : Refused layout memory pointer ttl h.cancelled failure) :
    perform store layout memory pointer ttl h = (.failed failure, h) := by
  cases hrefused with
  | unreadable hbroken => exact perform_of_scopeAt (scopeAt_of_unreadable hbroken)
  | blank hread hblank => exact perform_of_scopeAt (scopeAt_of_blank hread hblank)
  -- Only takes have a number of seconds; both functions look at the cancellation last.
  | badTtl hnamed hasked hshort =>
    subst hasked
    show take store layout memory _ h = _
    unfold take
    rw [request_of_names hnamed, if_neg hshort]
  | cancelled hnamed hlasting hheld =>
    cases ttl with
    | some seconds =>
      show take store layout memory _ h = _
      unfold take
      rw [request_of_names hnamed, if_pos (hlasting seconds rfl)]
      exact if_pos hheld
    | none =>
      show release store layout memory (arguments pointer none) h = _
      unfold release
      rw [arguments, scopeAt_of_names hnamed]
      exact if_pos hheld

/-- What a proper request asks of the store. -/
def asked (scope : ScopeKey) : Option Int32 → TokenRequest
  | some seconds => .take scope (.ofGuest seconds)
  | none => .release scope

/-- What a store in memory makes of a request, seen by the guest that asked and by everyone
afterwards. -/
inductive Served (store : String) (h : HostState) (m : InMemoryStore) :
    TokenRequest → HostReply → HostState → Prop where
  /-- A take is answered with the new count of its scope. -/
  | taken {scope ttl count m' value after}
      (htakes : m.take? scope ttl h.services.clock.monotonic = some (count, m'))
      (hresult : value.toInt = (count : Int))
      (hstored : after.services.store store = .inMemory m') :
      Served store h m (.take scope ttl) (.done (.ok [.i32 value])) after
  /-- A take that the clock has no room for changes nothing. -/
  | overflowed {scope ttl after}
      (hbeyond : InMemoryStore.clockEnd ≤ h.services.clock.monotonic + ttl.nanoseconds)
      (hstored : after.services.store store = .inMemory m) :
      Served store h m (.take scope ttl) (.panicked InMemoryStore.overflowPanic) after
  /-- A release clears its scope and no other. -/
  | released {scope after}
      (hstored : after.services.store store = .inMemory (m.release scope))
      (hcleared : ∀ other, (m.release scope).get? other =
        if other = scope then none else m.get? other) :
      Served store h m (.release scope) (.done (.ok [])) after

/-- Everything but one store is as before, the log apart. -/
structure Spared (store : String) (h after : HostState) : Prop where
  handles : after.handles = h.handles
  scope : after.slot = h.slot ∧ after.cancelled = h.cancelled
  notes : after.journal.notes = h.journal.notes
  clients : after.services.clients = h.services.clients
  clock : after.services.clock = h.services.clock
  stores : ∀ other, other ≠ store → after.services.store other = h.services.store other

/-- A store that a request left behind under its name, with whatever the log tells of it. -/
theorem Spared.of_setStore (store : String) (h : HostState) (left : TokenStore)
    (events : List Log.Event) :
    Spared store h
      { h with
        services := h.services.setStore store left
        journal := { h.journal with events } } :=
  ⟨rfl, ⟨rfl, rfl⟩, rfl, rfl, rfl, fun _ hapart => Services.store_setStore_other hapart _ _⟩

variable {m : InMemoryStore}

/-- A take that was read and is allowed. Its time to live may be any here: a number of seconds
would be spelled out. -/
theorem take_of_request {life : Duration} (hthere : h.services.store store = .inMemory m)
    {args : List Value} (hasks : request layout memory args = .ok (scope, life))
    (hunfired : h.cancelled = false) :
    Served store h m (.take scope life) (take store layout memory args h).1
        (take store layout memory args h).2 ∧
      Spared store h (take store layout memory args h).2 := by
  have hknown := Services.known_of_inMemory hthere
  have hallowed : ¬ h.cancelled = true := by
    rw [hunfired]
    exact Bool.false_ne_true
  unfold take
  rw [hasks]
  dsimp only
  rw [if_neg hallowed, hthere]
  -- The store counts, unless the deadline lies beyond what its clock can tell.
  cases htakes : m.take? scope life h.services.clock.monotonic with
  | none =>
    have hsame : (TokenStore.inMemory m).take scope life h.services.clock =
        (.panic InMemoryStore.overflowPanic, .inMemory m) := by
      simp only [TokenStore.take, htakes]
    rw [hsame]
    exact ⟨.overflowed (InMemoryStore.take?_eq_none.mp htakes)
      (Services.store_setStore_self hknown _), Spared.of_setStore store h _ _⟩
  | some counted =>
    obtain ⟨count, m'⟩ := counted
    have hsmall : count < 2 ^ 31 := by
      have hlimited := InMemoryStore.take?_count_le htakes
      unfold InMemoryStore.countLimit at hlimited
      omega
    rw [TokenStore.take_inMemory htakes]
    exact ⟨.taken htakes (Int32.toInt_ofNat_of_lt hsmall) (Services.store_setStore_self hknown _),
      Spared.of_setStore store h _ _⟩

/-- A proper release is served, and everything but its store is spared. -/
theorem release_of_proper (hthere : h.services.store store = .inMemory m)
    (hproper : Proper layout memory pointer none h.cancelled scope) :
    Served store h m (.release scope)
        (release store layout memory (arguments pointer none) h).1
        (release store layout memory (arguments pointer none) h).2 ∧
      Spared store h (release store layout memory (arguments pointer none) h).2 := by
  have hknown := Services.known_of_inMemory hthere
  have hunfired : ¬ h.cancelled = true := by
    rw [hproper.unfired]
    exact Bool.false_ne_true
  unfold release
  rw [arguments, scopeAt_of_names hproper.named]
  dsimp only
  rw [if_neg hunfired, hthere]
  exact ⟨.released (Services.store_setStore_self hknown _)
    (InMemoryStore.get?_release_any m scope), Spared.of_setStore store h _ _⟩

/-- A proper request is carried out by the store, and leaves everything else alone. -/
theorem perform_of_proper (hthere : h.services.store store = .inMemory m)
    (hproper : Proper layout memory pointer ttl h.cancelled scope) :
    Served store h m (asked scope ttl) (perform store layout memory pointer ttl h).1
        (perform store layout memory pointer ttl h).2 ∧
      Spared store h (perform store layout memory pointer ttl h).2 := by
  cases ttl with
  | some seconds =>
    refine take_of_request hthere ?_ hproper.unfired
    rw [request_of_names hproper.named, if_pos (hproper.lasting seconds rfl)]
  | none => exact release_of_proper hthere hproper

/-! ## The outcomes of a call -/

/-- How a call that takes or releases tokens of a store in memory ends. -/
structure Settled (store : String) (layout : StringLayout) (memory : Memory) (pointer : Int32)
    (ttl : Option Int32) (h : HostState) (m : InMemoryStore) (reply : HostReply)
    (after : HostState) : Prop where
  /-- It succeeds just when the pointer names a scope, the time to live is positive and the
  caller's scope has not fired. -/
  succeeds : h.services.clock.HasTime → ((∃ values, reply = .done (.ok values)) ↔
    ∃ scope, Proper layout memory pointer ttl h.cancelled scope)
  /-- The store then carries the request out, and no other. -/
  served : ∀ scope, Proper layout memory pointer ttl h.cancelled scope →
    Served store h m (asked scope ttl) reply after
  spared : Spared store h after
  /-- It fails for the first reason that there is. -/
  fails : ∀ failure, reply = .failed failure ↔
    Refused layout memory pointer ttl h.cancelled failure
  /-- What fails has changed nothing. -/
  kept : ∀ failure, reply = .failed failure → after = h

/-- What a store makes of a request is no failure. -/
theorem Served.not_failed {r : TokenRequest} {after : HostState} :
    ¬ Served store h m r (.failed failure) after := nofun

/-- With time left on the clock it is a result. -/
theorem Served.done {reply : HostReply} {after : HostState} (htime : h.services.clock.HasTime)
    (hserved : Served store h m (asked scope ttl) reply after) :
    ∃ values, reply = .done (.ok values) := by
  cases ttl with
  | some seconds =>
    cases hserved with
    | taken => exact ⟨_, rfl⟩
    | overflowed hbeyond =>
      have hfits := htime.fits seconds
      omega
  | none =>
    cases hserved
    exact ⟨_, rfl⟩

/-- Every request is served, or refused for the first thing that is wrong with it. -/
theorem perform_settled (hthere : h.services.store store = .inMemory m) (layout : StringLayout)
    (memory : Memory) (pointer : Int32) (ttl : Option Int32) :
    Settled store layout memory pointer ttl h m (perform store layout memory pointer ttl h).1
      (perform store layout memory pointer ttl h).2 := by
  rcases refused_or_proper layout memory pointer ttl h.cancelled with
    ⟨failure, hrefused⟩ | ⟨scope, hproper⟩
  -- What is refused is not proper: a proper request is served, and being served is no failure.
  · have hhappens := perform_of_refused store hrefused
    have himproper : ∀ scope, ¬ Proper layout memory pointer ttl h.cancelled scope := by
      intro scope hproper
      have hserved := (perform_of_proper hthere hproper).1
      rw [hhappens] at hserved
      exact hserved.not_failed
    rw [hhappens]
    refine ⟨fun _ => ⟨?_, ?_⟩, ?_, ?_, fun other => ⟨?_, ?_⟩, fun _ _ => rfl⟩
    · rintro ⟨values, hsuccess⟩
      cases hsuccess
    · exact fun ⟨scope, hproper⟩ => absurd hproper (himproper scope)
    · exact fun scope hproper => absurd hproper (himproper scope)
    · exact ⟨rfl, ⟨rfl, rfl⟩, rfl, rfl, rfl, fun _ _ => rfl⟩
    · rintro ⟨⟩
      exact hrefused
    · intro halso
      exact congrArg Prod.fst (hhappens.symm.trans (perform_of_refused store halso))
  · obtain ⟨hserved, hspared⟩ := perform_of_proper hthere hproper
    have hsucceeded : ∀ failure, (perform store layout memory pointer ttl h).1 ≠
        .failed failure := by
      intro failure hfailed
      rw [hfailed] at hserved
      exact hserved.not_failed
    refine ⟨fun htime => ⟨fun _ => ⟨scope, hproper⟩, fun _ => hserved.done htime⟩, ?_, hspared,
      fun failure => ⟨fun hfailed => absurd hfailed (hsucceeded failure), ?_⟩,
      fun failure hfailed => absurd hfailed (hsucceeded failure)⟩
    · intro other halso
      exact (perform_of_proper hthere halso).1
    · intro hrefused
      exact congrArg Prod.fst (perform_of_refused store hrefused)

/-- Let a guest call the functions that take and release tokens of a store in memory, with any
memory, pointer and time to live, strings laid out in either way, and any counts in the store. A
take succeeds just when the string at the pointer is a scope that is not blank, the time to live is
positive and the caller's scope has not fired; the store has then made one take of that scope with
that time to live, and the result is its count. A release succeeds just when the first and the last
hold, and that scope and no other is cleared. Otherwise the call fails for the first of these that
does not hold (`Tokens.Refused`), and the host and the guest's memory are as before. -/
theorem storeFunctions_settled {taking releasing : HostFunction}
    (htakes : ("store", "takeToken", taking) ∈ (Capability.tokenStore store layout).functions)
    (hreleases :
      ("store", "releaseTokens", releasing) ∈ (Capability.tokenStore store layout).functions)
    (hthere : h.services.store store = .inMemory m) (name : String) (memory : Memory)
    (pointer seconds : Int32) :
    (∃ reply after,
      taking.call name [.i32 pointer, .i32 seconds] memory h = (reply, memory, after) ∧
        Settled store layout memory pointer (some seconds) h m reply after) ∧
    ∃ reply after,
      releasing.call name [.i32 pointer] memory h = (reply, memory, after) ∧
        Settled store layout memory pointer none h m reply after := by
  obtain ⟨-, rfl⟩ : "store" = (Capability.tokenStore store layout).group ∧
      taking = ⟨⟨[.i32, .i32], [.i32]⟩, .takeToken store layout⟩ := by
    simpa [Capability.functions, Capability.builtIns] using htakes
  obtain ⟨-, rfl⟩ : "store" = (Capability.tokenStore store layout).group ∧
      releasing = ⟨⟨[.i32], []⟩, .releaseTokens store layout⟩ := by
    simpa [Capability.functions, Capability.builtIns] using hreleases
  exact ⟨⟨_, _, rfl, perform_settled hthere layout memory pointer (some seconds)⟩,
    ⟨_, _, rfl, perform_settled hthere layout memory pointer none⟩⟩

/-- A store in which one scope has been taken twice. -/
def twiceTaken : InMemoryStore := ⟨.extendOnTake, [(TokenStore.scopeA, ⟨2, 5000000000⟩)]⟩

/-- A host with that store, whose caller's scope has not fired. -/
def withCounts : HostState where
  slot := 0
  handles := .empty
  cancelled := false
  services := ⟨[("counts", .inMemory twiceTaken)], [], default⟩
  journal := .empty

/-- A page that ends with the name of that scope and a zero byte. -/
def withName : Memory := (Memory.ofPages 1).set 65534 97

theorem withName_names : Names .terminated withName 65534 TokenStore.scopeA :=
  eq_ok_of_toOption (by decide +kernel)

/-- The third take of a scope that has a count of two is answered with three. -/
theorem storeFunctions_settled_third : ∃ after : HostState,
    HostFunction.call ⟨⟨[.i32, .i32], [.i32]⟩, .takeToken "counts" .terminated⟩ "store.takeToken"
      [.i32 65534, .i32 10] withName withCounts = (.done (.ok [.i32 3]), withName, after) ∧
    after.services.store "counts" =
      .inMemory ⟨.extendOnTake, [(TokenStore.scopeA, ⟨3, 11000000000⟩)]⟩ := by
  have hstores : withCounts.services.store "counts" = .inMemory twiceTaken := rfl
  obtain ⟨⟨reply, after, hcalled, hsettled⟩, -⟩ := storeFunctions_settled (.head _)
    (.tail _ (.head _)) hstores "store.takeToken" withName 65534 10
  have hproper : Proper .terminated withName 65534 (some 10) withCounts.cancelled
      TokenStore.scopeA := by
    refine ⟨withName_names, ?_, rfl⟩
    rintro _ ⟨⟩
    decide
  rw [hcalled]
  cases hsettled.served TokenStore.scopeA hproper with
  | taken hcounts hresult hstored =>
    have hcounted : twiceTaken.take? TokenStore.scopeA (.ofGuest 10)
        withCounts.services.clock.monotonic = some
          (3, ⟨.extendOnTake, [(TokenStore.scopeA, ⟨3, 11000000000⟩)]⟩) := rfl
    cases hcounts.symm.trans hcounted
    cases Int32.toInt_inj.mp (hresult.trans (show (3 : Int) = (3 : Int32).toInt from rfl))
    exact ⟨after, rfl, hstored⟩
  | overflowed hbeyond => exact absurd hbeyond (by decide)

end Tokens
end SandboxPool
