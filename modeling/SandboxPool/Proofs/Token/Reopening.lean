import SandboxPool.Host.StoreDesk
import SandboxPool.Proofs.Token.Agreement

/-!
# Databases that are closed and opened again

One table holds the rows of all scopes, and a database may be closed and opened again under the
other policy at any time, with a wall clock that goes back as it likes. Still each scope is on its
own: `ScopeRow.serve` is a database of a single row, `DatabaseTurn.asked` picks out of a history
the requests that name a scope, each with the moment it was made at and the policy in force, and
`StoreDesk.turns_of_scope` says that the scope is answered as that row would be.

A row that has expired at one reading of the clock may be live at an earlier one. So nothing is
said here about expired rows being gone: the row of a scope is followed as it stands in the table,
expired or not.
-/

namespace SandboxPool

/-! ## Files and the databases in them -/

namespace Files

variable {fs : Files} {p q place : Place} {content : FileContent}

theorem lookup_put (fs : Files) (p q : Place) (content : FileContent) :
    (fs.put p content).contents.lookup q =
      if q = p then some content else fs.contents.lookup q := by
  show (fs.contents.filter (fun f => f.1 ≠ p) ++ [(p, content)]).lookup q = _
  rw [List.lookup_append, lookup_filter_ne]
  by_cases hsame : q = p
  · simp [hsame]
  · simp [hsame, List.lookup_cons, beq_false_of_ne hsame]

/-- What was put at a place stands there. -/
theorem entry?_put_self (fs : Files) (p : Place) (content : FileContent) :
    entry? (fs.put p content) p = some (.file content) := by
  unfold entry?
  rw [lookup_put, if_pos rfl]

/-- A directory stays one when a file is put elsewhere. -/
theorem entry?_put_directory (helsewhere : q ≠ p) (hthere : fs.entry? q = some .directory) :
    entry? (fs.put p content) q = some .directory := by
  unfold entry? at hthere ⊢
  rw [lookup_put, if_neg helsewhere]
  cases hfound : fs.contents.lookup q with
  | some old => simp [hfound] at hthere
  | none =>
    simp only [hfound] at hthere ⊢
    have habove : (fs.workingDirectory :: fs.directories ++
        fs.contents.map Prod.fst).any q.isPrefixOf = true := by
      by_contra hnoneBelow
      rw [if_neg hnoneBelow] at hthere
      cases hthere
    rw [if_pos]
    obtain ⟨inside, hlisted, hisPrefix⟩ := List.any_eq_true.mp habove
    refine List.any_eq_true.mpr ⟨inside, ?_, hisPrefix⟩
    -- the file that made it a directory is still there, or is the one that was put
    rcases List.mem_append.mp hlisted with hkept | hheld
    · exact List.mem_append_left _ hkept
    · obtain ⟨file, hknown, rfl⟩ := List.mem_map.mp hheld
      apply List.mem_append_right
      show file.1 ∈ (fs.contents.filter (fun f => f.1 ≠ p) ++ [(p, content)]).map Prod.fst
      by_cases hreplaced : file.1 = p
      · simp [hreplaced]
      · rw [List.map_append]
        apply List.mem_append_left
        exact List.mem_map_of_mem (List.mem_filter.mpr ⟨hknown, by simpa using hreplaced⟩)

/-- A walk leads where it led, also after a file was put where no directory stood. -/
theorem walk_put (hnoDirectory : fs.entry? p ≠ some .directory) {names : List String}
    (hleads : fs.walk names q = .ok place) : (fs.put p content).walk names q = .ok place := by
  induction names generalizing q with
  | nil => exact hleads
  | cons name names ih =>
    -- What is put is no directory, so no directory on the way is replaced by it.
    unfold walk at hleads ⊢
    cases hstands : fs.entry? q with
    | none => simp [hstands] at hleads
    | some entry =>
      cases entry with
      | file old => simp [hstands] at hleads
      | directory =>
        have helsewhere : q ≠ p := fun hsame => hnoDirectory (hsame ▸ hstands)
        rw [entry?_put_directory helsewhere hstands]
        simp only [hstands] at hleads ⊢
        split
        · next hsame => rw [if_pos hsame] at hleads; exact ih hleads
        · next hother =>
          rw [if_neg hother] at hleads
          split
          · next hup => rw [if_pos hup] at hleads; exact ih hleads
          · next hdown =>
            rw [if_neg hdown] at hleads
            split
            · next hlong => rw [if_pos hlong] at hleads; cases hleads
            · next hshort => rw [if_neg hshort] at hleads; exact ih hleads

theorem resolve_put (hnoDirectory : fs.entry? p ≠ some .directory) {path : String}
    (hleads : fs.resolve path = .ok place) : (fs.put p content).resolve path = .ok place := by
  unfold resolve at hleads ⊢
  split at hleads
  · cases hleads
  · next hnotEmpty =>
    rw [if_neg hnotEmpty]
    split at hleads
    · cases hleads
    · next hnoZero =>
      rw [if_neg hnoZero]
      split at hleads
      · cases hleads
      · next hshort =>
        rw [if_neg hshort]
        exact walk_put hnoDirectory hleads

end Files

/-! ## A database of a single row -/

namespace ScopeRow

/-- Answers a request that names the row's scope. An expired row counts as none, and a release
forgets the row. -/
def serve (row : Option ScopeRow) (policy : TtlPolicy) (now : Int) :
    TokenRequest → TokenAnswer × Option ScopeRow
  | .take scope ttl =>
    let counted := ScopeTable.counted scope (DatabaseStore.deadline now ttl)
      (policy = .extendOnTake) (row.filter fun r => now < r.expiresAt)
    (.taken (.count (min counted.count InMemoryStore.countLimit)), some counted)
  | .release _ => (.released (.ok ()), none)

/-- Answers requests that all name the row's scope, each under its own policy. -/
def serveAll (row : Option ScopeRow) :
    List (TtlPolicy × Int × TokenRequest) → List TokenAnswer × Option ScopeRow
  | [] => ([], row)
  | (policy, now, r) :: rest =>
    ((serve row policy now r).1 :: (serveAll (serve row policy now r).2 rest).1,
      (serveAll (serve row policy now r).2 rest).2)

theorem serveAll_append (row : Option ScopeRow)
    (requests more : List (TtlPolicy × Int × TokenRequest)) :
    serveAll row (requests ++ more) =
      ((serveAll row requests).1 ++ (serveAll (serveAll row requests).2 more).1,
        (serveAll (serveAll row requests).2 more).2) := by
  induction requests generalizing row with
  | nil => rfl
  | cons first rest ih =>
    obtain ⟨policy, now, r⟩ := first
    rw [List.cons_append, serveAll, ih]
    rfl

end ScopeRow

/-! ## Requests, and closing in between -/

/-- What happens at a desk with an open database: a request when the clocks show `clock`, or the
database is closed and opened again under `policy`. -/
inductive DatabaseTurn where
  | request (clock : Clock) (r : TokenRequest)
  | reopened (policy : TtlPolicy)
  deriving Repr

namespace DatabaseTurn

/-- The policy in force after a turn. -/
def policyAfter (policy : TtlPolicy) : DatabaseTurn → TtlPolicy
  | request _ _ => policy
  | reopened later => later

/-- What a turn asks about a scope under a policy: at most one request, and the reading of the
wall clock. -/
def asks (scope : ScopeKey) (policy : TtlPolicy) :
    DatabaseTurn → List (TtlPolicy × Int × TokenRequest)
  | request clock r => if r.scope = scope then [(policy, clock.wall, r)] else []
  | reopened _ => []

/-- What a history asks about a scope, if it begins under `policy`. -/
def asked (scope : ScopeKey) (policy : TtlPolicy) :
    List DatabaseTurn → List (TtlPolicy × Int × TokenRequest)
  | [] => []
  | turn :: rest => turn.asks scope policy ++ asked scope (turn.policyAfter policy) rest

/-- The policy in force after a history. -/
def policyAt (policy : TtlPolicy) (history : List DatabaseTurn) : TtlPolicy :=
  history.foldl policyAfter policy

/-- The turns that may give the row of a scope another deadline, or take it away: a release, a
take that finds no row or an expired one, and any take under a policy that extends. -/
def SetsDeadline (scope : ScopeKey) (policy : TtlPolicy) (row : Option ScopeRow) :
    DatabaseTurn → Prop
  | request clock (.take named _) =>
    named = scope ∧ (policy = .extendOnTake ∨ ∀ r, row = some r → r.expiresAt ≤ clock.wall)
  | request _ (.release named) => named = scope
  | reopened _ => False

variable {scope : ScopeKey} {policy : TtlPolicy} {clock : Clock} {r : TokenRequest}
  {before after : List DatabaseTurn}

theorem asks_self (hnamed : r.scope = scope) :
    asks scope policy (.request clock r) = [(policy, clock.wall, r)] := if_pos hnamed

theorem asks_other (hother : r.scope ≠ scope) : asks scope policy (.request clock r) = [] :=
  if_neg hother

theorem asked_append (scope : ScopeKey) (policy : TtlPolicy) (before after : List DatabaseTurn) :
    asked scope policy (before ++ after) =
      asked scope policy before ++ asked scope (policyAt policy before) after := by
  induction before generalizing policy with
  | nil => rfl
  | cons turn rest ih =>
    rw [List.cons_append, asked, asked, ih, List.append_assoc]
    rfl

/-- A request about another scope asks nothing about this one. -/
theorem asked_other (hother : r.scope ≠ scope) :
    asked scope policy (before ++ .request clock r :: after) =
      asked scope policy (before ++ after) := by
  rw [asked_append, asked_append, asked, asks_other hother, List.nil_append]
  rfl

/-- Opening again under the policy in force asks nothing, and changes nothing about what follows. -/
theorem asked_reopened :
    asked scope policy (before ++ .reopened (policyAt policy before) :: after) =
      asked scope policy (before ++ after) := by
  rw [asked_append, asked_append, asked]
  rfl

/-- A turn that sets no deadline leaves the one there is. -/
theorem expiresAt_asks {row : Option ScopeRow} {turn : DatabaseTurn}
    (hsets : ¬ turn.SetsDeadline scope policy row) :
    (ScopeRow.serveAll row (turn.asks scope policy)).2.map ScopeRow.expiresAt =
      row.map ScopeRow.expiresAt := by
  cases turn with
  | reopened later => rfl
  | request clock r =>
    by_cases hnamed : r.scope = scope
    · rw [asks_self hnamed]
      cases r with
      | release key => exact absurd hnamed hsets
      | take key ttl =>
        -- A take that sets no deadline finds a row alive, under a policy that leaves it alone.
        obtain ⟨hfixed, hlive⟩ := not_or.mp fun heither => hsets ⟨hnamed, heither⟩
        obtain ⟨old, hthere⟩ := not_forall.mp hlive
        obtain ⟨rfl, hahead⟩ := Classical.not_imp.mp hthere
        have hunexpired : clock.wall < old.expiresAt := by omega
        simp [ScopeRow.serveAll, ScopeRow.serve, ScopeTable.counted, Option.filter, hunexpired,
          hfixed]
    · rw [asks_other hnamed]
      rfl

end DatabaseTurn

namespace StoreDesk

open TokenStore (answersFor answersFor_cons scopeA scopeB)

/-- The rows of the open database. -/
def rows (d : StoreDesk) : ScopeTable :=
  match d.opened with
  | some ⟨.database s, _⟩ => s.table
  | _ => []

/-- One turn at a desk whose open store is a database at `path`, with the answer to a request. -/
def turn (d : StoreDesk) (path : String) :
    DatabaseTurn → List (ScopeKey × TokenAnswer) × StoreDesk
  | .reopened policy => ([], (d.openStore .database path policy).2)
  | .request clock r =>
    match d.opened, r with
    | none, _ => ([], d)
    | some s, .take scope ttl =>
      ([(scope, .taken (d.take s scope ttl clock).1)], (d.take s scope ttl clock).2)
    | some s, .release scope =>
      ([(scope, .released (d.release s scope).1)], (d.release s scope).2)

/-- Turns in order, with the answers to all requests. -/
def turns (d : StoreDesk) (path : String) :
    List DatabaseTurn → List (ScopeKey × TokenAnswer) × StoreDesk
  | [] => ([], d)
  | t :: rest =>
    ((d.turn path t).1 ++ ((d.turn path t).2.turns path rest).1,
      ((d.turn path t).2.turns path rest).2)

theorem answersFor_append (scope : ScopeKey) (answers more : List (ScopeKey × TokenAnswer)) :
    answersFor scope (answers ++ more) = answersFor scope answers ++ answersFor scope more := by
  simp [answersFor]

/-- True of a path whose database is kept in a file. -/
def InFile (path : String) : Prop := ¬ (path = OpenStore.throwaway ∨ path.isEmpty)

/-- A desk with an open database under `policy`. If the database has a file, then `path` leads to
it. -/
structure Keeps (path : String) (policy : TtlPolicy) (place : Option Place) (d : StoreDesk) :
    Prop where
  opened : d.opened = some ⟨.database ⟨policy, d.rows⟩, place⟩
  distinct : d.rows.Distinct
  leads : ∀ p, place = some p → InFile path ∧ d.files.resolve path = .ok p
  file : ∀ p, place = some p → ∃ content, d.files.entry? p = some (.file content)

variable {path : String} {policy later : TtlPolicy} {place : Option Place} {d d' : StoreDesk}
  {scope : ScopeKey} {ttl : Duration} {clock : Clock}

/-- Another table, and other events in the log, with everything else as it was. -/
theorem Keeps.replaced (hkeeps : Keeps path policy place d) {table : ScopeTable}
    (hdistinct : table.Distinct) (journal : Journal) :
    Keeps path policy place
      { d with opened := some ⟨.database ⟨policy, table⟩, place⟩, journal } :=
  ⟨rfl, hdistinct, hkeeps.leads, hkeeps.file⟩

/-- What a desk and its answers say about a scope: the answers to requests that name it, and its
row. -/
def about (scope : ScopeKey) (out : List (ScopeKey × TokenAnswer) × StoreDesk) :
    List TokenAnswer × Option ScopeRow :=
  (answersFor scope out.1, out.2.rows.row? scope)

/-- A request that is answered as the row of its scope would answer it, and changes that row only,
says about any scope what its row says. -/
theorem about_request {r : TokenRequest} {answer : TokenAnswer} {row : Option ScopeRow}
    {out : List (ScopeKey × TokenAnswer) × StoreDesk} (hanswers : out.1 = [(r.scope, answer)])
    (hserves : ScopeRow.serve (d.rows.row? r.scope) policy clock.wall r = (answer, row))
    (hrows : ∀ other, out.2.rows.row? other = if other = r.scope then row else d.rows.row? other) :
    about scope out =
      ScopeRow.serveAll (d.rows.row? scope)
        (DatabaseTurn.asks scope policy (.request clock r)) := by
  unfold about
  rw [hanswers, answersFor_cons, hrows]
  by_cases hnamed : r.scope = scope
  · rw [DatabaseTurn.asks_self hnamed, if_pos hnamed, if_pos hnamed.symm, ← hnamed,
      ScopeRow.serveAll, hserves]
    rfl
  · rw [DatabaseTurn.asks_other hnamed, if_neg hnamed, if_neg fun hsame => hnamed hsame.symm]
    rfl

/-- A request at a desk that keeps a database is answered as the row of its scope would answer it,
and touches no other row. -/
theorem Keeps.request (hkeeps : Keeps path policy place d) (scope : ScopeKey) (clock : Clock)
    (r : TokenRequest) :
    Keeps path policy place (d.turn path (.request clock r)).2 ∧
      about scope (d.turn path (.request clock r)) =
        ScopeRow.serveAll (d.rows.row? scope)
          (DatabaseTurn.asks scope policy (.request clock r)) := by
  -- Either request replaces the table of the store that is open and touches no file.
  cases r with
  | take key ttl =>
    obtain ⟨hcount, -, hdistinct, hrows⟩ :=
      DatabaseStore.take_eq (d := ⟨policy, d.rows⟩) hkeeps.distinct key ttl clock.wall
    have hhappens : d.turn path (.request clock (.take key ttl)) =
        ([(key, .taken (.count ((DatabaseStore.mk policy d.rows).take key ttl clock.wall).1))],
          { d with
            opened := some ⟨.database
              ⟨policy, ((DatabaseStore.mk policy d.rows).take key ttl clock.wall).2.table⟩, place⟩
            journal := (d.turn path (.request clock (.take key ttl))).2.journal }) := by
      simp only [turn, hkeeps.opened, StoreDesk.take, TokenStore.take]
      rfl
    rw [hhappens]
    exact ⟨hkeeps.replaced hdistinct _, about_request rfl (by rw [hcount]; rfl) hrows⟩
  | release key =>
    have hhappens : d.turn path (.request clock (.release key)) =
        ([(key, .released (.ok ()))],
          { d with
            opened := some ⟨.database ⟨policy, d.rows.delete key⟩, place⟩
            journal := (d.turn path (.request clock (.release key))).2.journal }) := by
      simp only [turn, hkeeps.opened, StoreDesk.release, TokenStore.release]
      rfl
    rw [hhappens]
    exact ⟨hkeeps.replaced (hkeeps.distinct.filter _) _,
      about_request rfl rfl (ScopeTable.row?_delete hkeeps.distinct key)⟩

/-! ## Opening -/

/-- The place that a database was found at is no directory. -/
theorem rowsAt_place {fs : Files} {rows : ScopeTable} {p : Place}
    (hfound : OpenStore.rowsAt fs path = .ok (rows, p)) :
    fs.resolve path = .ok p ∧ fs.entry? p ≠ some .directory := by
  unfold OpenStore.rowsAt at hfound
  split at hfound
  · cases hfound
  · next spot hleads =>
    rw [hleads]
    split at hfound
    · next hnothing => cases hfound; simp [hnothing]
    · cases hfound
    · next hstands => cases hfound; simp [hstands]
    · next hstands =>
      split at hfound
      · cases hfound; simp [hstands]
      · cases hfound

/-- Opening a path at which a database is found keeps its rows, and the file they came from. -/
theorem openStore_found {rows : ScopeTable} {p : Place} (policy : TtlPolicy)
    (hinFile : InFile path)
    (hfound : OpenStore.rowsAt d.closed.files path = .ok (rows, p)) :
    (d.openStore .database path policy).2.rows = rows ∧
      (rows.Distinct → Keeps path policy (some p) (d.openStore .database path policy).2) := by
  obtain ⟨hleads, hnoDirectory⟩ := rowsAt_place hfound
  have hhappens : (d.openStore .database path policy).2 =
      ⟨some ⟨.database ⟨policy, rows⟩, some p⟩, d.closed.files.put p (.database rows),
        (d.openStore .database path policy).2.journal⟩ := by
    unfold InFile at hinFile
    simp only [openStore, OpenStore.ofBackend, OpenStore.ofPath, if_neg hinFile, hfound]
  rw [hhappens]
  refine ⟨rfl, fun hdistinct => ⟨rfl, hdistinct, ?_, ?_⟩⟩
  · rintro _ ⟨⟩
    exact ⟨hinFile, Files.resolve_put hnoDirectory hleads⟩
  · rintro _ ⟨⟩
    exact ⟨_, Files.entry?_put_self _ _ _⟩

/-- A database that was opened keeps the rows that it found. -/
theorem keeps_of_opened (hopened : d.openStore .database path policy = (.ok (), d'))
    (hdistinct : d'.rows.Distinct) :
    ∃ place, Keeps path policy place d' ∧ (InFile path → place.isSome) := by
  obtain rfl : (d.openStore .database path policy).2 = d' := congrArg Prod.snd hopened
  -- A path that names no file gets a database of its own, which begins empty.
  by_cases hinFile : InFile path
  · cases hfound : OpenStore.rowsAt d.closed.files path with
    | error fault =>
      unfold InFile at hinFile
      simp only [openStore, OpenStore.ofBackend, OpenStore.ofPath, if_neg hinFile,
        hfound] at hopened
      cases hopened
    | ok it =>
      obtain ⟨rows, p⟩ := it
      obtain ⟨rfl, hkeeps⟩ := openStore_found policy hinFile hfound
      exact ⟨some p, hkeeps hdistinct, fun _ => rfl⟩
  · have hhappens : (d.openStore .database path policy).2 =
        ⟨some ⟨.database ⟨policy, []⟩, none⟩, d.closed.files,
          (d.openStore .database path policy).2.journal⟩ := by
      have hthrowaway := not_not.mp hinFile
      simp only [openStore, OpenStore.ofBackend, OpenStore.ofPath, if_pos hthrowaway]
    rw [hhappens]
    exact ⟨none, ⟨rfl, List.nodup_nil, nofun, nofun⟩, fun hfile => absurd hfile hinFile⟩

/-- A database that is closed and opened again keeps its rows. -/
theorem Keeps.reopened {p : Place} (hkeeps : Keeps path policy (some p) d) (later : TtlPolicy) :
    Keeps path later (some p) (d.openStore .database path later).2 ∧
      (d.openStore .database path later).2.rows = d.rows := by
  obtain ⟨hinFile, hleads⟩ := hkeeps.leads p rfl
  obtain ⟨content, hfile⟩ := hkeeps.file p rfl
  have hnoDirectory : d.files.entry? p ≠ some .directory := by simp [hfile]
  have hclosed : d.closed.files = d.files.put p (.database d.rows) := by
    simp only [StoreDesk.closed, hkeeps.opened, OpenStore.close]
  have hfound : OpenStore.rowsAt d.closed.files path = .ok (d.rows, p) := by
    unfold OpenStore.rowsAt
    rw [hclosed, Files.resolve_put hnoDirectory hleads]
    simp only [Files.entry?_put_self]
  obtain ⟨hrows, hkept⟩ := openStore_found later hinFile hfound
  exact ⟨hkept hkeeps.distinct, hrows⟩

/-! ## Histories -/

/-- A desk that keeps a database keeps it through a turn, and says about a scope what its row
says. Only a database without a file must not be closed. -/
theorem Keeps.turn (hkeeps : Keeps path policy place d) (scope : ScopeKey) {t : DatabaseTurn}
    (hlasting : place.isSome ∨ ∀ later, t ≠ .reopened later) :
    Keeps path (t.policyAfter policy) place (d.turn path t).2 ∧
      about scope (d.turn path t) =
        ScopeRow.serveAll (d.rows.row? scope) (t.asks scope policy) := by
  cases t with
  | request clock r => exact hkeeps.request scope clock r
  | reopened later =>
    rcases hlasting with hfile | hopen
    · obtain ⟨p, rfl⟩ := Option.isSome_iff_exists.mp hfile
      obtain ⟨hkept, hrows⟩ := hkeeps.reopened later
      refine ⟨hkept, ?_⟩
      show (_, (d.openStore .database path later).2.rows.row? scope) = _
      rw [hrows]
      rfl
    · exact absurd rfl (hopen later)

/-- A desk that keeps a database keeps it through a history, and says about a scope what its row
says. -/
theorem Keeps.turns (hkeeps : Keeps path policy place d) (scope : ScopeKey)
    {history : List DatabaseTurn}
    (hlasting : place.isSome ∨ ∀ later, .reopened later ∉ history) :
    Keeps path (DatabaseTurn.policyAt policy history) place (d.turns path history).2 ∧
      about scope (d.turns path history) =
        ScopeRow.serveAll (d.rows.row? scope) (DatabaseTurn.asked scope policy history) := by
  induction history generalizing policy d with
  | nil => exact ⟨hkeeps, rfl⟩
  | cons t rest ih =>
    -- A turn either asks something of the scope or leaves its row as it was.
    obtain ⟨hkept, hsaid⟩ := hkeeps.turn scope (hlasting.imp_right fun hnone later hsame =>
      hnone later (hsame ▸ List.mem_cons_self))
    obtain ⟨hkeptOn, hsaidThen⟩ := ih hkept (hlasting.imp_right fun hnone later hinside =>
      hnone later (List.mem_cons_of_mem _ hinside))
    refine ⟨hkeptOn, ?_⟩
    have hrow : (d.turn path t).2.rows.row? scope =
        (ScopeRow.serveAll (d.rows.row? scope) (t.asks scope policy)).2 := congrArg Prod.snd hsaid
    have hanswers : answersFor scope (d.turn path t).1 =
        (ScopeRow.serveAll (d.rows.row? scope) (t.asks scope policy)).1 := congrArg Prod.fst hsaid
    rw [DatabaseTurn.asked, ScopeRow.serveAll_append, ← hrow, ← hsaidThen, ← hanswers]
    show (answersFor scope (_ ++ _), _) = _
    rw [answersFor_append]
    rfl

/-- A desk at which a database was just opened at `path`, with at most one row for each scope, and
a history in which it is closed only if a file keeps its rows. -/
structure Serves (path : String) (policy : TtlPolicy) (history : List DatabaseTurn)
    (d : StoreDesk) : Prop where
  opened : ∃ before : StoreDesk, before.openStore .database path policy = (.ok (), d)
  distinct : d.rows.Distinct
  lasting : InFile path ∨ ∀ later, .reopened later ∉ history

/-- What a database promises to one scope among all. -/
structure Alone (scope : ScopeKey) (path : String) (policy : TtlPolicy)
    (history : List DatabaseTurn) (d : StoreDesk) : Prop where
  /-- The answers and the row are those of a database of that single row. -/
  answered : about scope (d.turns path history) =
    ScopeRow.serveAll (d.rows.row? scope) (DatabaseTurn.asked scope policy history)
  /-- Whatever else is asked elsewhere, the same requests get the same answers. -/
  sameAsked : ∀ {path' policy' history' d'}, Serves path' policy' history' d' →
    d'.rows.row? scope = d.rows.row? scope →
    DatabaseTurn.asked scope policy' history' = DatabaseTurn.asked scope policy history →
      about scope (d'.turns path' history') = about scope (d.turns path history)
  /-- A request that names another scope might as well not be there. -/
  withoutOther : ∀ before after clock r, history = before ++ .request clock r :: after →
    r.scope ≠ scope →
      about scope (d.turns path (before ++ after)) = about scope (d.turns path history)
  /-- Opening again under the policy in force changes nothing. -/
  withoutReopening : ∀ before after,
    history = before ++ .reopened (DatabaseTurn.policyAt policy before) :: after →
      about scope (d.turns path (before ++ after)) = about scope (d.turns path history)
  /-- A deadline moves only where one is set. -/
  deadline : ∀ before t after, history = before ++ t :: after →
    ((d.turns path (before ++ [t])).2.rows.row? scope).map ScopeRow.expiresAt =
        ((d.turns path before).2.rows.row? scope).map ScopeRow.expiresAt ∨
      t.SetsDeadline scope (DatabaseTurn.policyAt policy before)
        ((d.turns path before).2.rows.row? scope)

variable {history : List DatabaseTurn}

theorem Serves.keeps (hserves : Serves path policy history d) :
    ∃ place, Keeps path policy place d ∧
      (place.isSome ∨ ∀ later, .reopened later ∉ history) := by
  obtain ⟨before, hopened⟩ := hserves.opened
  obtain ⟨place, hkeeps, hfile⟩ := keeps_of_opened hopened hserves.distinct
  exact ⟨place, hkeeps, hserves.lasting.imp_left hfile⟩

/-- Fewer turns are served as well. -/
theorem Serves.sublist (hserves : Serves path policy history d) {fewer : List DatabaseTurn}
    (hsub : fewer.Sublist history) : Serves path policy fewer d :=
  ⟨hserves.opened, hserves.distinct,
    hserves.lasting.imp_right fun hnone later hinside => hnone later (hsub.subset hinside)⟩

/-- A scope is answered as the only row of a database would be. -/
theorem Serves.turns_of_scope (hserves : Serves path policy history d) (scope : ScopeKey) :
    about scope (d.turns path history) =
      ScopeRow.serveAll (d.rows.row? scope) (DatabaseTurn.asked scope policy history) := by
  obtain ⟨place, hkeeps, hlasting⟩ := hserves.keeps
  exact (hkeeps.turns scope hlasting).2

/-- Whatever is asked of a database, at whatever readings of the wall clock, and whenever it is
closed and opened again under whichever policy: what a scope is answered depends on the requests
that name it, their readings and the policies in force, and its deadline moves only at takes that
make its row anew, takes under a policy that extends, and releases. -/
theorem Serves.scope_answered_alone (hserves : Serves path policy history d) (scope : ScopeKey) :
    Alone scope path policy history d := by
  have hsaid := hserves.turns_of_scope scope
  refine ⟨hsaid, ?_, ?_, ?_, ?_⟩
  · intro path' policy' history' d' hother hsameRow hsameAsked
    -- Requests of other scopes can be left out, and so can reopening, without another answer.
    rw [hsaid, hother.turns_of_scope scope, hsameRow, hsameAsked]
  · rintro before after clock r rfl hnamed
    have hfewer := hserves.sublist
      (List.Sublist.append_left (List.sublist_cons_self (.request clock r) after) before)
    rw [hsaid, hfewer.turns_of_scope scope, DatabaseTurn.asked_other hnamed]
  · rintro before after rfl
    have hfewer := hserves.sublist (List.Sublist.append_left
      (List.sublist_cons_self _ after) before)
    rw [hsaid, hfewer.turns_of_scope scope, DatabaseTurn.asked_reopened]
  · rintro before t after rfl
    by_cases hsets : t.SetsDeadline scope (DatabaseTurn.policyAt policy before)
        ((d.turns path before).2.rows.row? scope)
    · exact .inr hsets
    refine .inl ?_
    -- What the scope was asked up to here, and then this turn.
    have hshorter : (before ++ [t]).Sublist (before ++ t :: after) := by simp
    have hrow := congrArg Prod.snd
      ((hserves.sublist (List.sublist_append_left before _)).turns_of_scope scope)
    have hfurther := congrArg Prod.snd ((hserves.sublist hshorter).turns_of_scope scope)
    dsimp only [about] at hrow hfurther
    rw [DatabaseTurn.asked_append, ScopeRow.serveAll_append, ← hrow] at hfurther
    rw [hfurther, DatabaseTurn.asked, DatabaseTurn.asked, List.append_nil]
    exact DatabaseTurn.expiresAt_asks hsets

/-- A desk at which a database was opened in an empty directory. -/
def atNewDatabase : StoreDesk :=
  ((ofFiles (.empty ["work"])).openStore .database "db" .extendOnTake).2

theorem atNewDatabase_opened :
    (ofFiles (.empty ["work"])).openStore .database "db" .extendOnTake = (.ok (), atNewDatabase) ∧
      atNewDatabase.rows = [] := by
  have hname : "db".splitOn "/" = ["db"] := by
    simp +decide [String.splitOn, String.splitOnAux]
  have hfound : OpenStore.rowsAt (.empty ["work"]) "db" = .ok ([], ["work", "db"]) := by
    unfold OpenStore.rowsAt Files.resolve
    rw [hname]
    rfl
  have hhappens : OpenStore.ofPath "db" .extendOnTake (.empty ["work"]) =
      .ok (⟨.database ⟨.extendOnTake, []⟩, some ["work", "db"]⟩,
        (Files.empty ["work"]).put ["work", "db"] (.database [])) := by
    unfold OpenStore.ofPath
    rw [hfound]
    rfl
  unfold atNewDatabase openStore OpenStore.ofBackend
  simp only [ofFiles, closed, hhappens]
  exact ⟨trivial, rfl⟩

/-- A scope that expires, is taken anew, comes to life again as the clock goes back, and is
extended in the end, while another scope is in use. -/
def backAndForth : List DatabaseTurn :=
  [.request ⟨0, 0⟩ (.take scopeA (.ofSeconds 10)), .request ⟨0, 500⟩ (.take scopeB (.ofSeconds 1)),
    .reopened .fixedAtFirstTake, .request ⟨0, 20000⟩ (.take scopeA (.ofSeconds 10)),
    .reopened .fixedAtFirstTake, .request ⟨0, 40000⟩ (.release scopeB),
    .request ⟨0, 1000⟩ (.take scopeA (.ofSeconds 10)), .reopened .extendOnTake,
    .request ⟨0, 2000⟩ (.take scopeA (.ofSeconds 1))]

theorem scope_answered_alone_backAndForth :
    Alone scopeA "db" .extendOnTake backAndForth atNewDatabase ∧
      about scopeA (atNewDatabase.turns "db" backAndForth) =
        ([.taken (.count 1), .taken (.count 1), .taken (.count 2), .taken (.count 3)],
          some ⟨scopeA.text, 3, 3000⟩) := by
  obtain ⟨hopened, hrows⟩ := atNewDatabase_opened
  have hinFile : InFile "db" := by
    unfold InFile
    decide
  have hserves : Serves "db" .extendOnTake backAndForth atNewDatabase :=
    ⟨⟨_, hopened⟩, hrows ▸ List.nodup_nil, .inl hinFile⟩
  have halone := hserves.scope_answered_alone scopeA
  refine ⟨halone, halone.answered.trans ?_⟩
  rw [hrows]
  decide +kernel

end StoreDesk
end SandboxPool
