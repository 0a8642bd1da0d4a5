import SandboxPool.Proofs.Host.Upserts
import SandboxPool.Proofs.Message.RoundTrip

/-!
# What completing a lock does

`Lock.complete` fills in and checks by turns. It may stop at any of three rules and keeps what it
filled in until then. `complete_settles` says for every lock which ones are accepted
(`Lock.Proper`), what may have changed (`Lock.FilledIn`), and that completing the lock again does
nothing more: the rules cannot tell what was filled in. An accepted lock that travels to the host
again in its bytes is therefore accepted as it is.
-/

namespace SandboxPool
namespace Lock

/-! ## What is accepted and what changes -/

/-- A lock that breaks no rule. -/
structure Proper (l : Lock) : Prop where
  kind : l.kind = "" ∨ l.kind = "lock"
  /-- Some character of its name is not white space. -/
  name : ∃ m, l.metadata = some m ∧ ∃ c ∈ m.name.toList, ¬ Text.isSpace c
  /-- Some field of its target is set. -/
  target : ∃ spec target, l.spec = some spec ∧ spec.target = some target ∧
    ∃ field ∈ target.toList, field ≠ ""

/-- A lock `l'` is `l`, but for some fields that `l` left empty. -/
structure FilledIn (l l' : Lock) : Prop where
  kind : l'.kind = l.kind ∨ l.kind = "" ∧ l'.kind = "lock"
  version : l'.version = l.version ∨ l.version = "" ∧ l'.version = "v2"
  metadata : l'.metadata = l.metadata ∨ l.metadata = none ∧ l'.metadata = some .empty ∨
    ∃ m, l.metadata = some m ∧ m.namespace = "" ∧
      l'.metadata = some { m with «namespace» := "default" }
  subKind : l'.subKind = l.subKind
  spec : l'.spec = l.spec

/-- A lock has a kind, a version and a namespace. -/
structure Whole (l : Lock) : Prop where
  kind : l.kind = "lock"
  version : l.version ≠ ""
  «namespace» : ∃ m, l.metadata = some m ∧ m.namespace ≠ ""

/-! ## Filling in -/

/-- A lock whose kind, version and metadata are filled in. -/
def begun (l : Lock) : Lock :=
  { l with
    kind := properKind
    version := orDefault l.version latestVersion
    metadata := some (l.metadata.getD .empty) }

/-- A lock whose namespace is filled in as well. -/
def filled (l : Lock) : Lock :=
  let m := l.metadata.getD .empty
  { l.begun with
    metadata := some { m with «namespace» := orDefault m.namespace defaultNamespace } }

variable {s default : String} {l : Lock}

/-- A field that is set stays, and one that is empty becomes the default. -/
theorem orDefault_cases (s default : String) :
    s ≠ "" ∧ orDefault s default = s ∨ s = "" ∧ orDefault s default = default := by
  unfold orDefault
  by_cases hempty : s = ""
  · simp [hempty]
  · simp [hempty]

/-- With a default that says something, no field is left empty. -/
theorem orDefault_ne_empty (hproper : default ≠ "") : orDefault s default ≠ "" := by
  rcases orDefault_cases s default with ⟨hset, hsame⟩ | ⟨-, hsame⟩
  · rwa [hsame]
  · rwa [hsame]

/-- Filling in a field once more changes nothing, even if the default is empty. -/
theorem orDefault_orDefault : orDefault (orDefault s default) default = orDefault s default := by
  rcases orDefault_cases s default with ⟨-, hsame⟩ | ⟨rfl, hsame⟩
  · rw [hsame, hsame]
  · rw [hsame]
    rcases orDefault_cases default default with ⟨-, hagain⟩ | ⟨-, hagain⟩ <;> exact hagain

/-- Kind, version and metadata are filled in once and for all. -/
theorem begun_begun (l : Lock) : l.begun.begun = l.begun := by
  unfold begun
  rw [orDefault_orDefault, Option.getD_some]

/-- Filling in can be taken up where it stopped. -/
theorem filled_begun (l : Lock) : l.begun.filled = l.filled := by
  unfold filled
  rw [begun_begun]
  rfl

/-- So is the namespace. -/
theorem filled_filled (l : Lock) : l.filled.filled = l.filled := by
  unfold filled begun
  dsimp only [Option.getD_some]
  rw [orDefault_orDefault, orDefault_orDefault]

theorem name_begun (l : Lock) : l.begun.name = l.name := by
  unfold name begun
  cases l.metadata <;> rfl

/-- Filling in leaves the name alone, so it cannot give a name to a lock without one. -/
theorem name_filled (l : Lock) : l.filled.name = l.name := by
  unfold name filled
  cases l.metadata <;> rfl

/-! ## The ways it ends -/

/-- The refusal of a lock of another kind. -/
def wrongKind (kind : String) : Failure :=
  ⟨.invalid ("expected kind '" ++ properKind ++ "', got '" ++ kind ++ "'"), []⟩

/-- The refusal of a lock without a name. -/
def noName : Failure := ⟨.invalid "lock name must be set", []⟩

/-- The refusal of a lock without a target. -/
def noTarget : Failure := ⟨.invalid "at least one lock target field must be set", []⟩

/-- Filling in goes as far as the first rule that is broken. -/
theorem complete_eq (l : Lock) : l.complete =
    if l.kind ≠ "" ∧ l.kind ≠ "lock" then (.error (wrongKind l.kind), l)
    else if Text.isBlank l.name then (.error noName, l.begun)
    else if l.target?.all LockTarget.isEmpty then (.error noTarget, l.filled)
    else (.ok (), l.filled) := by
  -- the program asks for a field's emptiness, and for the name after filling in
  have hkind : (¬ l.kind.isEmpty ∧ l.kind ≠ properKind) ↔ l.kind ≠ "" ∧ l.kind ≠ "lock" := by
    rw [String.isEmpty_iff]
    rfl
  have hname : l.name = (l.metadata.getD .empty).name := by
    unfold Lock.name
    cases l.metadata <;> rfl
  unfold complete
  simp only [hkind, hname]
  rfl

/-- A text is blank unless some character of it is not white space. -/
theorem isBlank_eq_false : Text.isBlank s = false ↔ ∃ c ∈ s.toList, ¬ Text.isSpace c := by
  simp [Text.isBlank]

/-- The rule about the name, as `Proper` has it: a lock without metadata has no name. -/
theorem named_iff (l : Lock) : Text.isBlank l.name = false ↔
    ∃ m, l.metadata = some m ∧ ∃ c ∈ m.name.toList, ¬ Text.isSpace c := by
  unfold name
  rw [isBlank_eq_false]
  cases l.metadata <;> simp

/-- The rule about the target, as `Proper` has it: a lock without a specification has no target. -/
theorem targeted_iff (l : Lock) : l.target?.all LockTarget.isEmpty = false ↔
    ∃ spec target, l.spec = some spec ∧ spec.target = some target ∧
      ∃ field ∈ target.toList, field ≠ "" := by
  unfold target?
  cases l.spec with
  | none => simp
  | some spec => cases htarget : spec.target <;> simp [htarget, LockTarget.isEmpty]

/-- The four ways it ends. -/
theorem complete_cases (l : Lock) :
    (¬ (l.kind = "" ∨ l.kind = "lock") ∧ l.complete = (.error (wrongKind l.kind), l)) ∨
    ((l.kind = "" ∨ l.kind = "lock") ∧ Text.isBlank l.name ∧
      l.complete = (.error noName, l.begun)) ∨
    ((l.kind = "" ∨ l.kind = "lock") ∧ Text.isBlank l.name = false ∧
      l.target?.all LockTarget.isEmpty ∧ l.complete = (.error noTarget, l.filled)) ∨
    l.Proper ∧ l.complete = (.ok (), l.filled) := by
  -- one case for each rule, in the order in which they are checked
  rw [complete_eq]
  by_cases hkind : l.kind = "" ∨ l.kind = "lock"
  · rw [if_neg fun hwrong => not_or.mpr hwrong hkind]
    refine .inr ?_
    cases hblank : Text.isBlank l.name with
    | true => exact .inl ⟨hkind, rfl, rfl⟩
    | false =>
      cases htarget : l.target?.all LockTarget.isEmpty with
      | true => exact .inr (.inl ⟨hkind, rfl, rfl, rfl⟩)
      | false =>
        exact .inr (.inr ⟨⟨hkind, (named_iff l).mp hblank, (targeted_iff l).mp htarget⟩, rfl⟩)
  · exact .inl ⟨hkind, if_pos (not_or.mp hkind)⟩

/-! ## Completing again -/

/-- What is filled in first does not change the outcome. -/
theorem complete_begun (hkind : l.kind = "" ∨ l.kind = "lock") : l.begun.complete = l.complete := by
  rw [complete_eq, complete_eq l, if_neg fun hwrong => hwrong.2 rfl,
    if_neg fun hwrong => not_or.mpr hwrong hkind, name_begun, begun_begun, filled_begun]
  rfl

/-- Nor does what is filled in once the lock has a name. -/
theorem complete_filled (hkind : l.kind = "" ∨ l.kind = "lock")
    (hnamed : Text.isBlank l.name = false) : l.filled.complete = l.complete := by
  rw [complete_eq, complete_eq l, if_neg fun hwrong => hwrong.2 rfl,
    if_neg fun hwrong => not_or.mpr hwrong hkind, name_filled, hnamed, filled_filled]
  rfl

/-- Completing a lock again, accepted or not, has the same outcome and changes nothing. -/
theorem complete_complete (l : Lock) : l.complete.2.complete = l.complete := by
  rcases complete_cases l with ⟨-, hsame⟩ | ⟨hkind, -, hsame⟩ | ⟨hkind, hnamed, -, hsame⟩ |
    ⟨hproper, hsame⟩
  -- a lock of another kind is handed back as it was
  · rw [hsame]
    exact hsame
  · rw [congrArg Prod.snd hsame]
    exact complete_begun hkind
  · rw [congrArg Prod.snd hsame]
    exact complete_filled hkind hnamed
  · rw [congrArg Prod.snd hsame]
    exact complete_filled hproper.kind ((named_iff l).mpr hproper.name)

/-- A lock that is accepted breaks no rule, and everything is filled in. -/
theorem proper_of_complete (haccepted : l.complete.1 = .ok ()) :
    l.Proper ∧ l.complete.2 = l.filled := by
  rcases complete_cases l with ⟨-, hsame⟩ | ⟨-, -, hsame⟩ | ⟨-, -, -, hsame⟩ | ⟨hproper, hsame⟩
  · cases (congrArg Prod.fst hsame).symm.trans haccepted
  · cases (congrArg Prod.fst hsame).symm.trans haccepted
  · cases (congrArg Prod.fst hsame).symm.trans haccepted
  · exact ⟨hproper, congrArg Prod.snd hsame⟩

/-- The locks that are accepted are those that break no rule. -/
theorem complete_ok_iff (l : Lock) : l.complete.1 = .ok () ↔ l.Proper := by
  refine ⟨fun haccepted => (proper_of_complete haccepted).1, fun hproper => ?_⟩
  rcases complete_cases l with ⟨hwrong, -⟩ | ⟨-, hblank, -⟩ | ⟨-, -, hempty, -⟩ | ⟨-, hsame⟩
  · exact absurd hproper.kind hwrong
  · rw [(named_iff l).mpr hproper.name] at hblank
    cases hblank
  · rw [(targeted_iff l).mpr hproper.target] at hempty
    cases hempty
  · rw [hsame]

/-! ## What is filled in -/

theorem filledIn_refl (l : Lock) : l.FilledIn l :=
  ⟨.inl rfl, .inl rfl, .inl rfl, rfl, rfl⟩

/-- A lock of the right kind, or of none, gets a kind, a version and metadata if it has none. -/
theorem begun_filledIn (hkind : l.kind = "" ∨ l.kind = "lock") : l.FilledIn l.begun where
  kind := hkind.elim (fun hempty => .inr ⟨hempty, rfl⟩) fun hsame => .inl hsame.symm
  version := (orDefault_cases _ _).imp And.right id
  metadata := by
    unfold begun
    cases l.metadata with
    | none => exact .inr (.inl ⟨rfl, rfl⟩)
    | some m => exact .inl rfl
  subKind := rfl
  spec := rfl

/-- A lock whose namespace is filled in has metadata: it has a name. -/
theorem filled_filledIn (hkind : l.kind = "" ∨ l.kind = "lock")
    (hnamed : Text.isBlank l.name = false) : l.FilledIn l.filled where
  kind := (begun_filledIn hkind).kind
  version := (begun_filledIn hkind).version
  metadata := by
    obtain ⟨m, hthere, -⟩ := (named_iff l).mp hnamed
    unfold filled
    rw [hthere]
    rcases orDefault_cases m.namespace defaultNamespace with ⟨-, hsame⟩ | ⟨hempty, hsame⟩
    · refine .inl ?_
      show some { m with «namespace» := orDefault m.namespace defaultNamespace } = some m
      rw [hsame]
    · refine .inr (.inr ⟨m, rfl, hempty, ?_⟩)
      show some { m with «namespace» := orDefault m.namespace defaultNamespace } = _
      rw [hsame]
      rfl
  subKind := rfl
  spec := rfl

/-- Wherever completing stops, it has only filled in what was empty. -/
theorem complete_filledIn (l : Lock) : l.FilledIn l.complete.2 := by
  rcases complete_cases l with ⟨-, hsame⟩ | ⟨hkind, -, hsame⟩ | ⟨hkind, hnamed, -, hsame⟩ |
    ⟨hproper, hsame⟩
  · rw [hsame]
    exact filledIn_refl l
  · rw [hsame]
    exact begun_filledIn hkind
  · rw [hsame]
    exact filled_filledIn hkind hnamed
  · rw [hsame]
    exact filled_filledIn hproper.kind ((named_iff l).mpr hproper.name)

/-- Once all is filled in, the lock has a kind, a version and a namespace. -/
theorem filled_whole (l : Lock) : l.filled.Whole where
  kind := rfl
  version := orDefault_ne_empty (by decide)
  «namespace» := ⟨_, rfl, orDefault_ne_empty (by decide)⟩

/-- Completing accepts the locks that break no rule. Accepted or not, nothing has changed but what
was empty, and completing the lock once more has the same outcome and changes nothing. So the bytes
of an accepted lock, whose kind, version and namespace are set then, are a lock that the host
accepts and leaves as it is. -/
theorem complete_settles (l : Lock) :
    let outcome := l.complete.1
    let l' := l.complete.2
    (outcome = .ok () ↔ l.Proper) ∧ l.FilledIn l' ∧ l'.complete = (outcome, l') ∧
    (outcome = .ok () → l'.Whole ∧ ∀ (order : Wire.EntryOrder) (t : HandleTable) (handle : Int32),
      (Message.encodeIn order l').length < 2 ^ 63 →
      t.HasLockBytes handle (Message.encodeIn order l') →
      Buffers.receive Lock t handle = .ok l' ∧
      Locks.request [.i32 handle] t = (.ok l', (t.discard handle).2)) := by
  intro outcome l'
  have hagain : l'.complete = (outcome, l') := complete_complete l
  refine ⟨complete_ok_iff l, complete_filledIn l, hagain, fun haccepted => ⟨?_, ?_⟩⟩
  · have hfilled : l' = l.filled := (proper_of_complete haccepted).2
    rw [hfilled]
    exact filled_whole l
  · -- the bytes of a small lock read back as the lock, and it has just been completed
    intro order t handle hsmall hthere
    have hdecoded : Message.decode Lock (Message.encodeIn order l') = .ok l' :=
      MessageKind.decode_encodeIn .lock order l' hsmall
    rw [haccepted] at hagain
    refine ⟨?_, Locks.request_of_lock ⟨_, l', hthere, hdecoded, hagain⟩⟩
    rw [Locks.receive_of_bytes hthere, Buffers.reading, hdecoded]

/-- A lock that keeps one user out and says nothing else. -/
def plain : Lock where
  kind := ""
  subKind := ""
  version := ""
  metadata := some ⟨"lock-1", "", "", .empty⟩
  spec := some ⟨some ⟨"mallory", "", "", "", "", "", ""⟩, "", 0⟩

/-- A lock that names a user and nothing else is accepted, and accepted again when its bytes come
back. -/
theorem complete_settles_plain :
    let l' := plain.complete.2
    let t : HandleTable := ⟨1, #[some ⟨Message.encodeIn .byKey l', none⟩], []⟩
    plain.complete.1 = .ok () ∧
      Locks.request [.i32 65537] t = (.ok l', (t.discard 65537).2) := by
  intro l' t
  have haccepted : plain.complete.1 = .ok () := by decide
  have hsmall : (Message.encodeIn .byKey l').length < 2 ^ 63 :=
    Nat.lt_of_le_of_lt (show _ ≤ 45 by decide) (by decide)
  obtain ⟨-, -, -, hsettled⟩ := complete_settles plain
  exact ⟨haccepted, ((hsettled haccepted).2 .byKey t 65537 hsmall (.inl rfl)).2⟩

end Lock
end SandboxPool
