import SandboxPool.Proofs.Pool.Accounts
import SandboxPool.Proofs.Pool.Moments

/-!
# Callbacks with a borrowed context

One who runs a callback borrows a context for it, lets it execute what it likes, gives the context
back and reports how the callback ended. `Visit` is such a run at one moment, among all the others
who have to do with the pools, and `Visit.Move` is what it does next; most of it is what anybody
does next who runs a callback, `Stage.Goes`. Each move is one step of the scene, or none; between
the moves the others may do anything. `Visit.Told` says what a visit has
done when it has come so far, and `Visit.finishes` that one who has a context can always get to
the end without help.
-/

namespace SandboxPool

/-- What a callback does with the context that it is given: it ends, or it executes a function and
goes on by what comes of it. -/
inductive Callback (β : Type) where
  | ends (ended : World.CallbackEnd β)
  | executes (function : String) (args : List Value) (next : Outcome (List Value) → Callback β)

section callbacks

variable {β : Type}

/-- What the end of a callback means to the one who ran it. -/
def World.CallbackEnd.outcome : World.CallbackEnd β → Outcome β
  | .returned result => result
  | .panicked message => refuse (.fault (message.getD "callback panicked"))

/-- How many panics the end of a callback is. -/
def World.CallbackEnd.panics : World.CallbackEnd β → Nat
  | .returned _ => 0
  | .panicked _ => 1

/-- Where a callback is after its executions, whose results are listed with the latest first. -/
def Callback.after (callback : Callback β) : List (Outcome (List Value)) → Option (Callback β)
  | [] => some callback
  | answer :: earlier =>
    match callback.after earlier with
    | some (.executes _ _ next) => some (next answer)
    | _ => none

/-- What one who looked at an execution has learned. -/
def Polled.answer? : Polled → Option (Outcome (List Value))
  | .done result => some result
  | .pending _ => none

/-- How many panics the end of a call is. -/
def CallEnd.panics : CallEnd → Nat
  | .returned _ => 0
  | .panicked => 1

/-- How many panics of the guest a look at an execution would find. -/
def World.panics (w : World) (e : Execution) : Nat :=
  ((e.own?.bind w.ended?).map CallEnd.panics).getD 0

namespace World

variable {w w' : World} {place : Nat} {scope : ScopeId} {cause : Cause}

/-- What one who asks for a permit may be refused for. -/
theorem ask_refused (hfound : w.ask place scope = (.refused cause, w')) :
    cause = .shuttingDown ∨ cause = .cancelled := by
  unfold ask at hfound
  split at hfound
  · cases hfound
    exact .inl rfl
  · next p hhere =>
    dsimp only at hfound
    split at hfound
    · cases hfound
      exact .inr rfl
    · rcases hanswer : p.request w.nextWaiter with ⟨got, p'⟩
      rw [hanswer] at hfound
      cases got <;> cases hfound
      exact .inl rfl

/-- So it is for one who looks again. -/
theorem askAgain_refused {v : Waiter} (hfound : w.askAgain place scope v = (.refused cause, w')) :
    cause = .shuttingDown ∨ cause = .cancelled := by
  unfold askAgain at hfound
  split at hfound
  · cases hfound
    exact .inl rfl
  · next p hhere =>
    dsimp only at hfound
    split at hfound
    · cases hfound
      exact .inr rfl
    · rcases hanswer : p.look v with ⟨got, p'⟩
      rw [hanswer] at hfound
      cases got <;> cases hfound
      exact .inl rfl

variable {e : Execution} {own : CallId} {polled : Polled}

/-- An execution whose own call is under way ends with its deadline. -/
theorem pollWith_running_late (w : World) (goOn : World → CallId → World)
    (hphase : e.phase = .running own) :
    ∃ result w', w.pollWith goOn e true = (.done result, w') := by
  rcases hlook : w.pollWith goOn e true with ⟨polled, w'⟩
  cases pollWith_found hlook with
  | missing => exact ⟨_, _, rfl⟩
  | nobody _ hmine | earlier _ hmine => cases hmine.symm.trans (Execution.own?_eq_some.mpr hphase)
  | own _ _ hfound =>
    cases hfound with
    | returned | panicked | cancelled | timedOut => exact ⟨_, _, rfl⟩
    | waits _ hearly => cases hearly

/-- An execution that begins its call has ended, or runs the call. -/
theorem BeginFound.ended_or_running (hfound : w.BeginFound (fun w _ => w) e x polled w') :
    (∃ result, polled = .done result) ∨
      ∃ e' own, polled = .pending e' ∧ e'.phase = .running own := by
  cases hfound with
  | cancelled | fails => exact .inl ⟨_, rfl⟩
  | begins => exact .inr ⟨_, _, rfl, rfl⟩

/-- With its deadline an execution ends, unless it has just begun its call. -/
theorem pollWith_late (hfound : w.pollWith (fun w _ => w) e true = (polled, w')) :
    (∃ result, polled = .done result) ∨
      ∃ e' own, polled = .pending e' ∧ e'.phase = .running own := by
  -- Whoever waits for a call that goes on is late already.
  cases pollWith_found hfound with
  | missing => exact .inl ⟨_, rfl⟩
  | nobody _ _ _ hfound => exact hfound.ended_or_running
  | earlier _ _ _ hfound =>
    cases hfound with
    | settled _ hfound => exact hfound.ended_or_running
    | cancelled | timedOut => exact .inl ⟨_, rfl⟩
    | waits _ hearly => cases hearly
  | own _ _ hfound =>
    cases hfound with
    | returned | panicked | cancelled | timedOut => exact .inl ⟨_, rfl⟩
    | waits _ hearly => cases hearly

end World

namespace Scene

variable {s : Scene} {q : Nat} {scope : ScopeId} {c : ContextId}

/-- One who has a permit is refused by a pool that was closed, and by no other. -/
theorem Reachable.handOut_refused (h : s.Reachable) (hmember : .permitted q scope ∈ s.tasks)
    {failure : Failure} {w : World} (hfound : s.world.handOut q scope = (.error failure, w)) :
    failure = ⟨.shuttingDown, []⟩ := by
  have hrefused : (s.world.handOut q scope).1 = .error failure := congrArg Prod.fst hfound
  cases hhere : s.world.pools[q]? with
  | none =>
    unfold World.handOut at hrefused
    rw [hhere] at hrefused
    exact (Except.error.inj hrefused).symm
  | some p =>
    rcases h.handOut_answer hhere hmember with ⟨-, hshut⟩ | ⟨-, c, -, hlent⟩
    · rw [hshut] at hrefused
      exact (Except.error.inj hrefused).symm
    · rw [hlent] at hrefused
      cases hrefused

/-- A context that comes back is taken. -/
theorem Reachable.requeue_ok (h : s.Reachable) (hmember : .returning q c ∈ s.tasks) :
    (s.world.requeue q c).1 = .ok () := by
  obtain ⟨x, p, -, hhere, -⟩ := h.there hmember rfl
  have hanswer : (s.world.enqueue q c).1 = _ := h.enqueue_answer hhere hmember
  rcases hfound : s.world.enqueue q c with ⟨returned, w⟩
  rw [hfound] at hanswer
  obtain rfl : returned = _ := hanswer
  unfold World.requeue
  rw [hfound]
  cases p.closed <;> rfl

end Scene

/-! ## Visits -/

/-- How far one has come who runs a callback. -/
inductive Stage (β : Type) where
  /-- Has not looked at the pool yet. -/
  | outside (callback : Callback β)
  /-- Found the pool open, and has not asked for a permit yet. -/
  | asking (callback : Callback β)
  | waiting (v : Waiter) (callback : Callback β)
  | permitted (callback : Callback β)
  /-- The callback has a context and goes on. -/
  | inside (c : ContextId) (callback : Callback β)
  /-- The callback waits for an execution. -/
  | executing (c : ContextId) (e : Execution) (next : Outcome (List Value) → Callback β)
  /-- The callback has ended, and its context is put back. -/
  | returning (c : ContextId) (ended : World.CallbackEnd β)
  | queued (c : ContextId) (ended : World.CallbackEnd β)
  /-- The pool has answered to the release; its answer is `back`. -/
  | released (back : Outcome Unit) (ended : World.CallbackEnd β)
  /-- There is a result; `ended` is how the callback ended, if it was run. -/
  | finished (ended : Option (World.CallbackEnd β)) (result : Outcome β)

namespace Stage

/-- What one at this stage has to do with the pool at a place. -/
def task? (q : Nat) (scope : ScopeId) : Stage β → Option Task
  | asking _ => some (.asking q scope)
  | waiting v _ => some (.waiting q scope v)
  | permitted _ => some (.permitted q scope)
  | inside c _ => some (.holding q scope c none)
  | executing c e _ => some (.holding q scope c (some e))
  | returning c _ => some (.returning q c)
  | queued c _ => some (.queued q c)
  | outside _ | released _ _ | finished _ _ => none

/-- What follows an answer of the permits. -/
def ofAsked (callback : Callback β) : World.Asked → Stage β
  | .refused cause => finished none (refuse cause)
  | .permitted => permitted callback
  | .inLine v => waiting v callback

/-- What follows a look into the queue. -/
def ofTaken (callback : Callback β) : Outcome ContextId → Stage β
  | .ok c => inside c callback
  | .error e => finished none (.error e)

/-- What follows a look at an execution. -/
def ofPolled (c : ContextId) (next : Outcome (List Value) → Callback β) : Polled → Stage β
  | .pending e => executing c e next
  | .done result => inside c (next result)

/-- What follows letting the context go, by the call that is recorded on it. -/
def ofLetGo (c : ContextId) (ended : World.CallbackEnd β) : Option CallId → Stage β
  | none => returning c ended
  | some _ => released (.ok ()) ended

/-- What follows a push into the queue; `back` is the pool's answer unless a permit is due. -/
def ofReturned (c : ContextId) (ended : World.CallbackEnd β) (back : Outcome Unit) :
    Option Pool.Returned → Stage β
  | some .queued => queued c ended
  | _ => released back ended

/-- What there is to note of what one does next: the context that it is lent, the call whose end it
finds, the answer that its callback gets, the panics of the guest that it finds. -/
structure Notes where
  borrowed : List ContextId := []
  joined : List CallId := []
  answers : List (Outcome (List Value)) := []
  panics : Nat := 0

/-- What one does next in a world who runs a callback with a context of the pool at `q`, whoever it
is: what there is to note, the world after it, and the stage. -/
inductive Goes (q : Nat) (scope : ScopeId) (w : World) (stage : Stage β) :
    Notes → World → Stage β → Prop where
  /-- It finds the pool closed. -/
  | turnsAway {callback} (hstage : stage = outside callback) (hshut : w.isOpen q = false) :
      Goes q scope w stage {} w (finished none (refuse .shuttingDown))
  /-- It asks for a permit. -/
  | asks {callback asked w'} (hstage : stage = asking callback)
      (hfound : w.ask q scope = (asked, w')) :
      Goes q scope w stage {} w' (ofAsked callback asked)
  /-- It looks again for a permit. -/
  | looks {waiter callback asked w'} (hstage : stage = waiting waiter callback)
      (hfound : w.askAgain q scope waiter = (asked, w')) :
      Goes q scope w stage {} w' (ofAsked callback asked)
  /-- It looks into the queue. -/
  | takes {callback taken w'} (hstage : stage = permitted callback)
      (hfound : w.handOut q scope = (taken, w')) :
      Goes q scope w stage { borrowed := taken.toOption.toList } w' (ofTaken callback taken)
  /-- The callback asks for a function that the guest does not have. -/
  | misses {c function args next failure}
      (hstage : stage = inside c (.executes function args next))
      (hfound : w.prepare c function args = .error failure) :
      Goes q scope w stage { answers := [.error failure] } w (inside c (next (.error failure)))
  /-- The callback begins an execution. -/
  | prepares {c function args next e} (hstage : stage = inside c (.executes function args next))
      (hfound : w.prepare c function args = .ok e) :
      Goes q scope w stage {} w (executing c e next)
  /-- The callback looks at its execution, whose deadline may have passed. -/
  | polls {c e next late polled w'} (hstage : stage = executing c e next)
      (hfound : w.pollWith (fun w _ => w) e late = (polled, w')) :
      Goes q scope w stage
        { joined := (w.joins e).toList, answers := polled.answer?.toList, panics := w.panics e }
        w' (ofPolled c next polled)
  /-- It queues the context. -/
  | enqueues {c ended returned w'} (hstage : stage = returning c ended)
      (hfound : w.enqueue q c = (returned, w')) :
      Goes q scope w stage {} w' (ofReturned c ended (w.requeue q c).1 returned)
  /-- It gives the permit of the context. -/
  | announces {c ended} (hstage : stage = queued c ended) :
      Goes q scope w stage {} (w.announce q c) (released (.ok ()) ended)
  /-- It reports what came of the callback; a refusal of the context would come first. -/
  | reports {back result} (hstage : stage = released back (.returned result)) :
      Goes q scope w stage {} w (finished (some (.returned result)) (back.bind fun _ => result))

/-- How far one has come who gets a context for a callback. -/
def ofApplicant (callback : Callback β) : World.Applicant → Stage β
  | .asking => asking callback
  | .waiting v => waiting v callback
  | .permitted => permitted callback
  | .answered taken => ofTaken callback taken

variable {q : Nat} {scope : ScopeId} {callback : Callback β} {c : ContextId}
  {next : Outcome (List Value) → Callback β} {ended : World.CallbackEnd β} {back : Outcome Unit}

/-- An answer of the permits leads a callback as far as it leads anybody. -/
theorem ofApplicant_ofAsked (callback : Callback β) (asked : World.Asked) :
    ofApplicant callback (.ofAsked asked) = ofAsked callback asked := by
  cases asked <;> rfl

/-- One who runs a callback gets its context as anybody does. -/
theorem Goes.of_approaches {a b : World × World.Applicant}
    (hmove : World.Approaches q scope a b) (callback : Callback β) :
    ∃ notes, Goes q scope a.1 (ofApplicant callback a.2) notes b.1 (ofApplicant callback b.2) := by
  cases hmove with
  | asks hfound =>
    rw [ofApplicant_ofAsked]
    exact ⟨_, .asks rfl hfound⟩
  | looks hfound =>
    rw [ofApplicant_ofAsked]
    exact ⟨_, .looks rfl hfound⟩
  | takes hfound => exact ⟨_, .takes rfl hfound⟩

/-- It attends to its executions as anybody does. -/
theorem Goes.of_attends {a b : World × Polled} (hmove : World.Attends a b) (c : ContextId)
    (next : Outcome (List Value) → Callback β) :
    (∃ notes, Goes q scope a.1 (ofPolled c next a.2) notes b.1 (ofPolled c next b.2)) ∨
      World.Background a.1 b.1 ∧ b.2 = a.2 := by
  cases hmove with
  | looks hfound => exact .inl ⟨_, .polls rfl hfound⟩
  | between hbackground => exact .inr ⟨hbackground, rfl⟩

@[simp] theorem task?_ofAsked (asked : World.Asked) :
    (ofAsked callback asked).task? q scope = Task.ofAsked q scope asked := by
  cases asked <;> rfl

@[simp] theorem task?_ofTaken (taken : Outcome ContextId) :
    (ofTaken callback taken).task? q scope = Task.ofTaken q scope taken := by
  cases taken <;> rfl

@[simp] theorem task?_ofPolled (polled : Polled) :
    (ofPolled c next polled).task? q scope = some (.holding q scope c polled.rest) := by
  cases polled <;> rfl

@[simp] theorem task?_ofReturned (returned : Option Pool.Returned) :
    (ofReturned c ended back returned).task? q scope = Task.ofReturned q c returned := by
  rcases returned with _ | (_ | _ | _) <;> rfl

/-- The panics of the callback that have been counted. -/
def faults : Stage β → Nat
  | finished (some ended) _ => ended.panics
  | _ => 0

end Stage

/-- What is left to be done for a context that was given back with a call on it. -/
inductive Rest where
  | nothing
  | settling (c : ContextId) (call : CallId)
  | returning (c : ContextId)
  | queued (c : ContextId)

namespace Rest

/-- What that has to do with the pool at a place. -/
def task? (q : Nat) (scope : ScopeId) : Rest → Option Task
  | nothing => none
  | settling c call => some (.settling q scope c call)
  | returning c => some (.returning q c)
  | queued c => some (.queued q c)

/-- What follows letting a context go, by the call that is recorded on it. -/
def ofLetGo (c : ContextId) : Option CallId → Rest
  | none => nothing
  | some call => settling c call

/-- What follows a push into the queue. -/
def ofReturned (c : ContextId) : Option Pool.Returned → Rest
  | some .queued => queued c
  | _ => nothing

/-- What is left to be done after a push is what the pool makes of it. -/
@[simp] theorem task?_ofReturned (q : Nat) (scope : ScopeId) (c : ContextId)
    (returned : Option Pool.Returned) :
    (ofReturned c returned).task? q scope = Task.ofReturned q c returned := by
  rcases returned with _ | (_ | _ | _) <;> rfl

end Rest

/-- One who runs a callback with a context of the pool at place `q` under a scope, in the middle of
everything else. -/
structure Visit (q : Nat) (scope : ScopeId) (β : Type) where
  world : World
  stage : Stage β
  rest : Rest
  others : List Task
  scopes : List ScopeId
  joined : List CallId
  /-- The contexts that were lent to it, and those that it gave back. -/
  borrowed : List ContextId
  released : List ContextId
  /-- What came of the executions of its callback, the latest first. -/
  answers : List (Outcome (List Value))
  /-- How many of them found that the guest had panicked. -/
  panics : Nat

namespace Visit

variable {q : Nat} {scope : ScopeId}

/-- The tasks of a visit. -/
def own (v : Visit q scope β) : List Task := (v.stage.task? q scope).toList ++
    (v.rest.task? q scope).toList

/-- The visit and everybody else. -/
def scene (v : Visit q scope β) : Scene := ⟨v.world, v.own ++ v.others, v.scopes, v.joined⟩

/-- One who is about to run a callback. -/
def start (q : Nat) (scope : ScopeId) (s : Scene) (callback : Callback β) : Visit q scope β :=
  ⟨s.world, .outside callback, .nothing, s.tasks, s.scopes, s.joined, [], [], [], 0⟩

/-- A visit that has come so far, with what there is to note of it. -/
def noting (v : Visit q scope β) (notes : Stage.Notes) (w : World) (stage : Stage β) :
    Visit q scope β :=
  { v with
    world := w
    stage
    joined := notes.joined ++ v.joined
    borrowed := notes.borrowed ++ v.borrowed
    answers := notes.answers ++ v.answers
    panics := v.panics + notes.panics }

/-- What a visit does next. -/
inductive Move : Visit q scope β → Visit q scope β → Prop where
  /-- What anybody does next who runs a callback. -/
  | goes {v : Visit q scope β} {notes w stage}
      (hgoes : Stage.Goes q scope v.world v.stage notes w stage) : Move v (v.noting notes w stage)
  /-- It finds the pool open. -/
  | enters {v : Visit q scope β} {callback} (hstage : v.stage = .outside callback)
      (hmade : scope ∈ v.scopes) (hfound : v.world.isOpen q) :
      Move v { v with stage := .asking callback }
  /-- It gives up waiting. -/
  | givesUp {v : Visit q scope β} {waiter callback} (hstage : v.stage = .waiting waiter callback) :
      Move v { v with
        world := v.world.giveUp q waiter
        stage := .finished none (refuse .cancelled) }
  /-- The callback has ended, and the context is given back. -/
  | releases {v : Visit q scope β} {c ended record w} (hstage : v.stage = .inside c (.ends ended))
      (hrest : v.rest = .nothing) (hfound : v.world.letGo c = (record, w)) :
      Move v { v with
        world := w
        stage := .ofLetGo c ended record
        rest := .ofLetGo c record
        released := c :: v.released }
  /-- It counts a panic and reports it. -/
  | faults {v : Visit q scope β} {back message}
      (hstage : v.stage = .released back (.panicked message)) :
      Move v { v with
        world := v.world.modifyPool q (·.count Counters.fault)
        stage := .finished (some (.panicked message))
          (back.bind fun _ => (World.CallbackEnd.panicked message).outcome) }
  /-- The call that was left on the context is over. -/
  | settles {v : Visit q scope β} {c call} (hrest : v.rest = .settling c call)
      (hpast : (v.world.ended? call).isSome) :
      Move v { v with
        world := v.world.count c Counters.settle
        rest := .returning c
        joined := call :: v.joined }
  /-- The context goes back into the queue. -/
  | putsBack {v : Visit q scope β} {c returned w} (hrest : v.rest = .returning c)
      (hfound : v.world.enqueue q c = (returned, w)) :
      Move v { v with world := w, rest := .ofReturned c returned }
  /-- Its permit is given. -/
  | permits {v : Visit q scope β} {c} (hrest : v.rest = .queued c) :
      Move v { v with world := v.world.announce q c, rest := .nothing }

/-- What others do while a visit stays where it is. -/
inductive Aside : Visit q scope β → Visit q scope β → Prop where
  | intro {v : Visit q scope β} {w others scopes joined}
      (hstep : v.scene.Step ⟨w, v.own ++ others, scopes, joined⟩) :
      Aside v { v with world := w, others := others, scopes := scopes, joined := joined }

/-- What happens next to a visit. -/
def Step (v t : Visit q scope β) : Prop := v.Move t ∨ v.Aside t

/-- Moves of a visit alone, and whole runs. -/
abbrev Moves : Visit q scope β → Visit q scope β → Prop := Relation.ReflTransGen Move

abbrev Steps : Visit q scope β → Visit q scope β → Prop := Relation.ReflTransGen Step

variable {u v t : Visit q scope β}

/-- Where the visit has a task at its stage, it is the first one of all. -/
theorem tasks_of_task {task : Task} (hstage : v.stage.task? q scope = some task) :
    v.scene.tasks = [] ++ task :: ((v.rest.task? q scope).toList ++ v.others) := by
  show (v.stage.task? q scope).toList ++ (v.rest.task? q scope).toList ++ v.others = _
  rw [hstage, List.append_assoc]
  rfl

/-- Without a task at its stage there is what is left to be done, and the others. -/
theorem tasks_of_none (hstage : v.stage.task? q scope = none) :
    v.scene.tasks = (v.rest.task? q scope).toList ++ v.others := by
  show (v.stage.task? q scope).toList ++ (v.rest.task? q scope).toList ++ v.others = _
  rw [hstage]
  rfl

/-- Where something is left to be done, it stands before the others. -/
theorem tasks_of_rest {task : Task} (hrest : v.rest.task? q scope = some task) :
    v.scene.tasks = (v.stage.task? q scope).toList ++ task :: v.others := by
  show (v.stage.task? q scope).toList ++ (v.rest.task? q scope).toList ++ v.others = _
  rw [hrest, List.append_assoc]
  rfl

/-- A step by which the first task becomes what the visit then has to do. -/
theorem scene_step {o : Option Task} (hstage : t.stage.task? q scope = o)
    (hstep : v.scene.Step ⟨t.world, [] ++ o.toList ++ ((t.rest.task? q scope).toList ++ t.others),
      t.scopes, t.joined⟩) : v.scene.Step t.scene := by
  unfold scene own at hstep ⊢
  rw [hstage]
  simpa only [List.append_assoc, List.nil_append] using hstep

/-- A step by which what is left to be done changes. -/
theorem scene_step_rest {o : Option Task} (hstage : t.stage = v.stage)
    (hrest : t.rest.task? q scope = o)
    (hstep : v.scene.Step ⟨t.world, (v.stage.task? q scope).toList ++ o.toList ++ t.others,
      t.scopes, t.joined⟩) : v.scene.Step t.scene := by
  unfold scene own at hstep ⊢
  rwa [hstage, hrest]

/-- A move is a step of the scene, or none. -/
theorem Move.scene (hmove : v.Move t) : t.scene = v.scene ∨ v.scene.Step t.scene := by
  -- where the visit has no task before and after, only its stage changes
  have hstill {before after : Stage β} (hstage : v.stage = before)
      (hsame : after.task? q scope = before.task? q scope) :
      (after.task? q scope).toList ++ (v.rest.task? q scope).toList ++ v.others =
        v.own ++ v.others := by
    unfold own
    rw [hstage, hsame]
  cases hmove with
  | goes hgoes =>
    cases hgoes with
    | turnsAway hstage _ | misses hstage _ | reports hstage =>
      exact .inl (congrArg (Scene.mk v.world · v.scopes v.joined) (hstill hstage rfl))
    | asks hstage hfound =>
      exact .inr (scene_step (Stage.task?_ofAsked _) (.ask (tasks_of_task (hstage ▸ rfl)) hfound))
    | looks hstage hfound =>
      exact .inr (scene_step (Stage.task?_ofAsked _) (.look (tasks_of_task (hstage ▸ rfl)) hfound))
    | takes hstage hfound =>
      exact .inr (scene_step (Stage.task?_ofTaken _) (.take (tasks_of_task (hstage ▸ rfl)) hfound))
    | prepares hstage hfound =>
      exact .inr (scene_step rfl (.prepare (tasks_of_task (hstage ▸ rfl)) hfound))
    | polls hstage hfound =>
      exact .inr (scene_step (Stage.task?_ofPolled _) (.poll (tasks_of_task (hstage ▸ rfl)) hfound))
    | enqueues hstage hfound =>
      exact .inr
        (scene_step (Stage.task?_ofReturned _) (.enqueue (tasks_of_task (hstage ▸ rfl)) hfound))
    | announces hstage =>
      exact .inr (scene_step rfl (.announce (tasks_of_task (hstage ▸ rfl))))
  | enters hstage hmade hfound =>
    have hstep := Scene.Step.enter (s := v.scene) q hmade hfound
    rw [tasks_of_none (hstage ▸ rfl)] at hstep
    exact .inr (scene_step rfl hstep)
  | @givesUp waiter callback hstage =>
    have hmine : v.stage.task? q scope = some (.waiting q scope waiter) := by
      rw [hstage]
      rfl
    exact .inr (scene_step rfl (.giveUp (tasks_of_task hmine)))
  | @releases c ended record w hstage hrest hfound =>
    have hmine : v.stage.task? q scope = some (.holding q scope c none) := by
      rw [hstage]
      rfl
    have hstep := Scene.Step.release (tasks_of_task hmine) hfound
    rw [hrest] at hstep
    cases record <;> exact .inr hstep
  | faults hstage =>
    have hstep := Scene.Step.fault (s := v.scene) q
    rw [tasks_of_none (hstage ▸ rfl)] at hstep
    exact .inr (scene_step (o := none) rfl hstep)
  | @settles c call hrest hpast =>
    have hmine : v.rest.task? q scope = some (.settling q scope c call) := by
      rw [hrest]
      rfl
    have hstep := Scene.Step.settle (tasks_of_rest hmine) hpast
    rw [List.append_cons] at hstep
    exact .inr (scene_step_rest rfl rfl hstep)
  | putsBack hrest hfound =>
    exact .inr (scene_step_rest rfl (Rest.task?_ofReturned ..)
      (.enqueue (tasks_of_rest (hrest ▸ rfl)) hfound))
  | @permits c hrest =>
    have hmine : v.rest.task? q scope = some (.queued q c) := by
      rw [hrest]
      rfl
    have hstep := Scene.Step.announce (tasks_of_rest hmine)
    rw [← List.append_nil (v.stage.task? q scope).toList] at hstep
    exact .inr (scene_step_rest (o := none) rfl rfl hstep)

theorem Aside.scene (haside : v.Aside t) : v.scene.Step t.scene := by
  cases haside with
  | intro hstep => exact hstep

theorem Step.reachable (hstep : v.Step t) (h : v.scene.Reachable) : t.scene.Reachable := by
  rcases hstep with hmove | haside
  · rcases hmove.scene with hsame | hnext
    · rw [hsame]
      exact h
    · exact h.step hnext
  · exact h.step haside.scene

/-- The scene around a visit stays reachable. -/
theorem Steps.reachable (hrun : u.Steps v) (h : u.scene.Reachable) : v.scene.Reachable := by
  induction hrun with
  | refl => exact h
  | tail _ hnext ih => exact hnext.reachable ih

/-! ## What a visit has done -/

/-- It has done nothing that shows. -/
structure Untouched (v : Visit q scope β) : Prop where
  borrowed : v.borrowed = []
  released : v.released = []
  answers : v.answers = []
  rest : v.rest = .nothing

/-- It has borrowed a context, and not given it back yet. -/
structure Has (v : Visit q scope β) (c : ContextId) : Prop where
  borrowed : v.borrowed = [c]
  released : v.released = []
  rest : v.rest = .nothing

/-- It has borrowed a context and given it back, each once, and its callback has ended. -/
structure GaveBack (v : Visit q scope β) (c : ContextId) (callback : Callback β)
    (ended : World.CallbackEnd β) : Prop where
  borrowed : v.borrowed = [c]
  released : v.released = [c]
  after : callback.after v.answers = some (.ends ended)

/-- What a visit has done when it has come so far. -/
def Told (callback : Callback β) (v : Visit q scope β) : Prop :=
  match v.stage with
  | .outside next | .asking next | .waiting _ next | .permitted next =>
    next = callback ∧ v.Untouched
  | .inside c next => v.Has c ∧ callback.after v.answers = some next
  | .executing c _ next =>
    v.Has c ∧ ∃ function args, callback.after v.answers = some (.executes function args next)
  | .returning c ended | .queued c ended => v.GaveBack c callback ended
  | .released back ended => back = .ok () ∧ ∃ c, v.GaveBack c callback ended
  | .finished none result =>
    v.Untouched ∧ (result = refuse .shuttingDown ∨ result = refuse .cancelled)
  | .finished (some ended) result =>
    result = ended.outcome ∧ ∃ c, v.GaveBack c callback ended

variable {callback : Callback β}

/-- One who has not begun has done nothing. -/
theorem told_start (s : Scene) (callback : Callback β) :
    (start q scope s callback).Told callback :=
  ⟨rfl, rfl, rfl, rfl, rfl⟩

/-- While nothing of this changes, it is as told. -/
theorem Told.kept (htold : v.Told callback) (hstage : t.stage = v.stage)
    (hborrowed : t.borrowed = v.borrowed) (hreleased : t.released = v.released)
    (hanswers : t.answers = v.answers) (hrest : v.rest = .nothing → t.rest = .nothing) :
    t.Told callback := by
  -- Each part of what is told reads these components only.
  have huntouched (h : v.Untouched) : t.Untouched :=
    ⟨hborrowed.trans h.borrowed, hreleased.trans h.released, hanswers.trans h.answers, hrest h.rest⟩
  have hhas {c : ContextId} (h : v.Has c) : t.Has c :=
    ⟨hborrowed.trans h.borrowed, hreleased.trans h.released, hrest h.rest⟩
  have hgave {c : ContextId} {ended : World.CallbackEnd β} (h : v.GaveBack c callback ended) :
      t.GaveBack c callback ended :=
    ⟨hborrowed.trans h.borrowed, hreleased.trans h.released, hanswers ▸ h.after⟩
  revert htold
  unfold Told
  rw [hstage, hanswers]
  cases v.stage with
  | outside | asking | waiting | permitted => exact And.imp_right huntouched
  | inside | executing => exact And.imp_left hhas
  | returning | queued => exact hgave
  | released => exact And.imp_right (Exists.imp fun _ => hgave)
  | finished ended result =>
    cases ended with
    | none => exact And.imp_left huntouched
    | some ended => exact And.imp_right (Exists.imp fun _ => hgave)

/-- The task of a visit is in the scene. -/
theorem mem_of_task {task : Task} (hstage : v.stage.task? q scope = some task) :
    task ∈ v.scene.tasks := by
  rw [tasks_of_task hstage]
  exact List.mem_cons_self

/-- Where a callback is that has learned one answer more. -/
theorem after_cons {function : String} {args : List Value}
    {next : Outcome (List Value) → Callback β} {answers : List (Outcome (List Value))}
    (hafter : callback.after answers = some (.executes function args next))
    (answer : Outcome (List Value)) : callback.after (answer :: answers) = some (next answer) := by
  unfold Callback.after
  rw [hafter]

/-- Going on tells on. -/
theorem told_goes {notes : Stage.Notes} {w : World} {stage : Stage β}
    (hgoes : Stage.Goes q scope v.world v.stage notes w stage) (h : v.scene.Reachable)
    (htold : v.Told callback) : (v.noting notes w stage).Told callback := by
  -- how far the visit has come tells what it has done so far
  unfold Told at htold
  cases hgoes with
  | turnsAway hstage _ =>
    rw [hstage] at htold
    obtain ⟨-, ⟨hb, hr, ha, hrest⟩⟩ := htold
    exact ⟨⟨hb, hr, ha, hrest⟩, .inl rfl⟩
  | @asks callback' asked w hstage hfound =>
    rw [hstage] at htold
    obtain ⟨hsame, ⟨hb, hr, ha, hrest⟩⟩ := htold
    cases asked with
    | refused cause =>
      exact ⟨⟨hb, hr, ha, hrest⟩, (World.ask_refused hfound).imp (congrArg refuse)
        (congrArg refuse)⟩
    | permitted | inLine _ => exact ⟨hsame, hb, hr, ha, hrest⟩
  | @looks waiter callback' asked w hstage hfound =>
    rw [hstage] at htold
    obtain ⟨hsame, ⟨hb, hr, ha, hrest⟩⟩ := htold
    cases asked with
    | refused cause =>
      exact ⟨⟨hb, hr, ha, hrest⟩,
        (World.askAgain_refused hfound).imp (congrArg refuse) (congrArg refuse)⟩
    | permitted | inLine _ => exact ⟨hsame, hb, hr, ha, hrest⟩
  | @takes callback' taken w hstage hfound =>
    rw [hstage] at htold
    obtain ⟨rfl, ⟨hb, hr, ha, hrest⟩⟩ := htold
    cases taken with
    | ok c => exact ⟨⟨congrArg (c :: ·) hb, hr, hrest⟩, congrArg callback'.after ha⟩
    | error failure =>
      obtain rfl := h.handOut_refused (mem_of_task (by rw [hstage]; rfl)) hfound
      exact ⟨⟨hb, hr, ha, hrest⟩, .inl rfl⟩
  | misses hstage _ =>
    rw [hstage] at htold
    obtain ⟨⟨hb, hr, hrest⟩, hafter⟩ := htold
    exact ⟨⟨hb, hr, hrest⟩, after_cons hafter _⟩
  | prepares hstage _ =>
    rw [hstage] at htold
    obtain ⟨⟨hb, hr, hrest⟩, hafter⟩ := htold
    exact ⟨⟨hb, hr, hrest⟩, _, _, hafter⟩
  | @polls c e next late polled w hstage hfound =>
    rw [hstage] at htold
    obtain ⟨⟨hb, hr, hrest⟩, function, args, hafter⟩ := htold
    cases polled with
    | pending e' => exact ⟨⟨hb, hr, hrest⟩, function, args, hafter⟩
    | done result => exact ⟨⟨hb, hr, hrest⟩, after_cons hafter result⟩
  | @enqueues c ended returned w hstage hfound =>
    rw [hstage] at htold
    obtain ⟨hb, hr, hafter⟩ := htold
    have htaken : (v.world.requeue q c).1 = .ok () :=
      h.requeue_ok (mem_of_task (by rw [hstage]; rfl))
    rcases returned with _ | (_ | _ | _)
    · exact ⟨htaken, c, hb, hr, hafter⟩
    · exact ⟨hb, hr, hafter⟩
    · exact ⟨htaken, c, hb, hr, hafter⟩
    · exact ⟨htaken, c, hb, hr, hafter⟩
  | announces hstage =>
    rw [hstage] at htold
    obtain ⟨hb, hr, hafter⟩ := htold
    exact ⟨rfl, _, hb, hr, hafter⟩
  | reports hstage =>
    rw [hstage] at htold
    obtain ⟨rfl, c, hb, hr, hafter⟩ := htold
    exact ⟨rfl, c, hb, hr, hafter⟩

/-- Every move tells on. -/
theorem Move.told (hmove : v.Move t) (h : v.scene.Reachable) (htold : v.Told callback) :
    t.Told callback := by
  have hbefore := htold
  unfold Told at hbefore
  cases hmove with
  | goes hgoes => exact told_goes hgoes h htold
  | enters hstage _ _ =>
    rw [hstage] at hbefore
    obtain ⟨hsame, ⟨hb, hr, ha, hrest⟩⟩ := hbefore
    exact ⟨hsame, hb, hr, ha, hrest⟩
  | givesUp hstage =>
    rw [hstage] at hbefore
    obtain ⟨-, ⟨hb, hr, ha, hrest⟩⟩ := hbefore
    exact ⟨⟨hb, hr, ha, hrest⟩, .inr rfl⟩
  | @releases c ended record w hstage _ hfound =>
    rw [hstage] at hbefore
    obtain ⟨⟨hb, hr, -⟩, hafter⟩ := hbefore
    have honce : c :: v.released = [c] := by rw [hr]
    cases record with
    | none => exact ⟨hb, honce, hafter⟩
    | some call => exact ⟨rfl, c, hb, honce, hafter⟩
  | faults hstage =>
    rw [hstage] at hbefore
    obtain ⟨rfl, c, hb, hr, hafter⟩ := hbefore
    exact ⟨rfl, c, hb, hr, hafter⟩
  -- What is put back was taken from the callback before: nothing that it was told changes.
  | settles hrest _ | putsBack hrest _ | permits hrest =>
    refine htold.kept rfl rfl rfl rfl fun hnone => ?_
    cases hrest.symm.trans hnone

/-- Every step tells on, for what others do changes nothing of what the visit has done. -/
theorem Step.told (hstep : v.Step t) (h : v.scene.Reachable) (htold : v.Told callback) :
    t.Told callback := by
  rcases hstep with hmove | haside
  · exact hmove.told h htold
  · cases haside
    exact htold.kept rfl rfl rfl rfl id

/-- In every run a visit has done what is told of it. -/
theorem Steps.told {s : Scene} (h : s.Reachable) (hrun : Steps (start q scope s callback) v) :
    v.scene.Reachable ∧ v.Told callback := by
  induction hrun with
  | refl => exact ⟨h, told_start s callback⟩
  | tail _ hnext ih => exact ⟨hnext.reachable ih.1, hnext.told ih.1 ih.2⟩

/-! ## A visit gets to its end -/

/-- A visit can get to the end of its callback, and to a result, by itself. -/
def Finishes (v : Visit q scope β) : Prop :=
  ∃ t ended result, v.Moves t ∧ t.stage = .finished (some ended) result

theorem Finishes.first (hmove : v.Move u) (h : u.Finishes) : v.Finishes := by
  obtain ⟨t, ended, result, hrun, hlast⟩ := h
  exact ⟨t, ended, result, .head hmove hrun, hlast⟩

/-- Once the pool has answered, the callback's end is reported. -/
theorem finishes_released {back : Outcome Unit} {ended : World.CallbackEnd β}
    (hstage : v.stage = .released back ended) : v.Finishes := by
  cases ended with
  | returned result => exact .first (.goes (.reports hstage)) ⟨_, _, _, .refl, rfl⟩
  | panicked message => exact .first (.faults hstage) ⟨_, _, _, .refl, rfl⟩

theorem finishes_queued {c : ContextId} {ended : World.CallbackEnd β}
    (hstage : v.stage = .queued c ended) : v.Finishes :=
  .first (.goes (.announces hstage)) (finishes_released rfl)

/-- A context that was let go is queued, and its permit given. -/
theorem finishes_returning {c : ContextId} {ended : World.CallbackEnd β}
    (hstage : v.stage = .returning c ended) : v.Finishes := by
  rcases hfound : v.world.enqueue q c with ⟨returned, w⟩
  refine .first (.goes (.enqueues hstage hfound)) ?_
  rcases returned with _ | (_ | _ | _)
  · exact finishes_released rfl
  · exact finishes_queued rfl
  · exact finishes_released rfl
  · exact finishes_released rfl

/-- An execution ends with its deadline, at the second look at the latest. -/
theorem finishes_executing {c : ContextId} {e : Execution}
    {next : Outcome (List Value) → Callback β} (hstage : v.stage = .executing c e next)
    (hrest : v.rest = .nothing)
    (hgoesOn : ∀ {u : Visit q scope β} answer, u.stage = .inside c (next answer) →
      u.rest = .nothing → u.Finishes) : v.Finishes := by
  have hrunning {u : Visit q scope β} {e : Execution} {own : CallId}
      (hstage : u.stage = .executing c e next) (hrest : u.rest = .nothing)
      (hphase : e.phase = .running own) : u.Finishes := by
    obtain ⟨result, w, hfound⟩ := u.world.pollWith_running_late _ hphase
    exact .first (.goes (.polls hstage hfound)) (hgoesOn result rfl hrest)
  rcases hfound : v.world.pollWith (fun w _ => w) e true with ⟨polled, w⟩
  refine .first (.goes (.polls hstage hfound)) ?_
  rcases World.pollWith_late hfound with ⟨result, rfl⟩ | ⟨e', own, rfl, hphase⟩
  · exact hgoesOn result rfl hrest
  · exact hrunning rfl hrest hphase

/-- Whatever a callback does, the visit gets to its end. -/
theorem finishes_inside (callback : Callback β) {v : Visit q scope β} {c : ContextId}
    (hstage : v.stage = .inside c callback) (hrest : v.rest = .nothing) : v.Finishes := by
  -- by induction on the callback, which goes on after each execution
  induction callback generalizing v with
  | ends ended =>
    rcases hfound : v.world.letGo c with ⟨record, w⟩
    refine .first (.releases hstage hrest hfound) ?_
    cases record with
    | none => exact finishes_returning rfl
    | some call => exact finishes_released rfl
  | executes function args next hgoesOn =>
    cases hfound : v.world.prepare c function args with
    | error failure => exact .first (.goes (.misses hstage hfound)) (hgoesOn _ rfl hrest)
    | ok e =>
      refine .first (.goes (.prepares hstage hfound)) (finishes_executing rfl hrest ?_)
      exact fun answer => hgoesOn answer

/-- Once it has been lent a context, a visit gets to its end by itself. -/
theorem Told.finishes (htold : v.Told callback) (hlent : v.borrowed ≠ []) : v.Finishes := by
  unfold Told at htold
  -- Where a context is lent, the stage is past the door, and from there the way out is known.
  cases hstage : v.stage with
  | outside | asking | waiting | permitted =>
    rw [hstage] at htold
    exact absurd htold.2.borrowed hlent
  | inside c next =>
    rw [hstage] at htold
    exact finishes_inside next hstage htold.1.rest
  | executing c e next =>
    rw [hstage] at htold
    exact finishes_executing hstage htold.1.rest fun answer => finishes_inside _
  | returning c ended => exact finishes_returning hstage
  | queued c ended => exact finishes_queued hstage
  | released back ended => exact finishes_released hstage
  | finished ended result =>
    rw [hstage] at htold
    cases ended with
    | none => exact absurd htold.1.borrowed hlent
    | some ended => exact ⟨v, ended, result, .refl, hstage⟩

/-- A visit can put its context back by itself, without going on otherwise. -/
def PutsBack (v : Visit q scope β) : Prop :=
  ∃ t, v.Moves t ∧ t.stage = v.stage ∧ t.rest = .nothing

theorem PutsBack.first (hmove : v.Move u) (hstage : u.stage = v.stage) (h : u.PutsBack) :
    v.PutsBack := by
  obtain ⟨t, hrun, hsame, hrest⟩ := h
  exact ⟨t, .head hmove hrun, hsame.trans hstage, hrest⟩

/-- A context on which a call was left is put back once the call is over. -/
theorem putsBack (hpast : ∀ c call, v.rest = .settling c call → (v.world.ended? call).isSome) :
    v.PutsBack := by
  -- From the last stage backwards, so that each way on ends in one that is known already.
  have hqueued {v : Visit q scope β} {c : ContextId} (hrest : v.rest = .queued c) : v.PutsBack :=
    .first (.permits hrest) rfl ⟨_, .refl, rfl, rfl⟩
  have hreturning {v : Visit q scope β} {c : ContextId} (hrest : v.rest = .returning c) :
      v.PutsBack := by
    rcases hfound : v.world.enqueue q c with ⟨returned, w⟩
    refine .first (.putsBack hrest hfound) rfl ?_
    rcases returned with _ | (_ | _ | _)
    · exact ⟨_, .refl, rfl, rfl⟩
    · exact hqueued rfl
    · exact ⟨_, .refl, rfl, rfl⟩
    · exact ⟨_, .refl, rfl, rfl⟩
  cases hrest : v.rest with
  | nothing => exact ⟨v, .refl, rfl, hrest⟩
  | settling c call => exact .first (.settles hrest (hpast c call hrest)) rfl (hreturning rfl)
  | returning c => exact hreturning hrest
  | queued c => exact hqueued hrest

end Visit
end callbacks
end SandboxPool
