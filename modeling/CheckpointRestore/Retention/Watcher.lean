import CheckpointRestore.Lib.Goroutines
import CheckpointRestore.Lib.Interp
import CheckpointRestore.Retention.Configuration
import CheckpointRestore.Retention.Ops
import CheckpointRestore.Retention.WriteFinished

namespace CheckpointRestore.Retention.Watcher

open Go Interaction

/-!
# `runGarbageCollector` — the collector's goroutines

The collector watches the checkpoint directory.  It is one goroutine that holds a lock as long as
it is in charge, one that receives file events and arms a timer for every path, one that watches
pods, and one for every timer that fires.  A policy change that moves the directory stops it through
the channel in the variable `quit` and starts another one.

* `Op`, `sig` — the steps: operations on channels, locks, contexts and timers, the calls of the
  watcher and the API, and `go` statements;
* `runGarbageCollector`, `eventLoop`, `podWatcher`, `reconcile` — the code;
* `Shared`, `guard`, `effect` — what the goroutines share, when a step can be made, and what it
  does;
* `Phase`, `phases` — where a goroutine is, and which steps it may take there;
* `phases_followed` — the code keeps to the phases.
-/

/-! ### The steps -/

deriving instance DecidableEq for PolicySnapshot

/-- What `Reconcile` reads of a `CheckpointRestoreOperator`. -/
structure Input where
  spec : CheckpointRestoreOperatorSpec
  applyPoliciesImmediately : Bool

/-- An `fsnotify.Event`, with the two kinds of operations that are looked at. -/
structure FsEvent where
  name : String
  create : Bool
  write : Bool

/-- What the `select` of the collector received; `none` is a closed channel. -/
inductive Received where
  | quit
  | event (event : Option FsEvent)
  | error (err : Option String)

/-- What the pod informer comes to next: the stop channel, or a deletion with its last known object.
    A deletion that was missed comes without one. -/
inductive Notice where
  | stopped
  | deleted (pod : Option (String × String × List String))

/-- The goroutines: the worker of the controller, and, by the number of their collector, its own,
    the one over its channels, the pod watcher, its informer, and a handler for each timer that
    fired.  `applyPoliciesImmediately` runs in goroutines of its own. -/
inductive Task where
  | worker
  | collector (i : ℕ)
  | events (i : ℕ)
  | podWatcher (i : ℕ)
  | informer (i : ℕ)
  | handler (i : ℕ) (path : String) (n : ℕ)
  | immediately (n : ℕ) (policies : PolicySnapshot)
  deriving DecidableEq

/-- The steps.  A send on `quit` is two of them, since it waits for its receiver; a section under
    the mutex of the timers is one. -/
inductive Op where
  | dequeue
  | get
  | applySpec (spec : CheckpointRestoreOperatorSpec)
  | offer
  | taken (q : ℕ)
  | makeQuit
  | goCollector
  | goImmediately (policies : PolicySnapshot)
  | lock
  | unlock
  | newWatcher (i : ℕ)
  | readQuit
  | receive (q : ℕ)
  | goPodWatcher (i : ℕ)
  | goEvents (i : ℕ)
  | snapshot
  | add (i : ℕ) (directory : String)
  | waitDone (i : ℕ)
  | closeWatcher (i : ℕ)
  | cancel (i : ℕ)
  | select (i q : ℕ)
  | lookupTimer (i : ℕ) (path : String)
  | newTimer (i : ℕ) (path : String)
  | reset (i : ℕ) (path : String)
  | stopTimers (i : ℕ)
  | closeDone (i : ℕ)
  | kubernetesClient
  | goInformer (i : ℕ)
  | notice (i : ℕ)
  | applyPolicies (details : CheckpointDetails)
  | applyPoliciesImmediately (policies : PolicySnapshot)
  | write (i : ℕ) (op : WriteOp)

/-- The steps with their answers; a `go` statement that starts one more of a kind answers with the
    number of the goroutine. -/
def sig : Signature where
  Op := Op
  Reply
    | .get => ApiReply Input
    | .applySpec _ => PolicySnapshot × Bool
    | .offer => ℕ
    | .goCollector => ℕ
    | .goImmediately _ => ℕ
    | .newWatcher _ => Option String
    | .readQuit => ℕ
    | .snapshot => PolicySnapshot
    | .add _ _ => Option String
    | .select _ _ => Received
    | .lookupTimer _ _ => Bool
    | .kubernetesClient => Option String
    | .notice _ => Notice
    | .write _ op => writeSig.Reply op
    | _ => Unit

/-- One step. -/
def step (op : sig.Op) : Prog sig (sig.Reply op) := .perform op

/-! ### The code -/

/-- `restartGarbageCollector`. -/
def restartGarbageCollector : Prog sig Unit := do
  let q ← step .offer
  step (.taken q)
  step .makeQuit
  let _ ← step .goCollector
  return ()

/-- The end of `Reconcile`. -/
def settle (input : Input) (policies : PolicySnapshot) : Prog sig (Option String) :=
  if input.applyPoliciesImmediately then do
    let _ ← step (.goImmediately policies)
    return none
  else return none

/-- `Reconcile`: the error it returns. -/
def reconcile : Prog sig (Option String) := do
  match ← step .get with
  | .notFound => return none
  | .failed err => return some err
  | .found input =>
    match ← step (.applySpec input.spec) with
    | (policies, true) => do
      restartGarbageCollector
      settle input policies
    | (policies, false) => settle input policies

/-- `runGarbageCollector`, with the deferred calls at the end. -/
def runGarbageCollector (i : ℕ) : Prog sig Unit := do
  step .lock
  match ← step (.newWatcher i) with
  | some _ =>
    -- without a watcher the collector waits for its end
    let q ← step .readQuit
    step (.receive q)
    step .unlock
    step (.cancel i)
  | none =>
    step (.goPodWatcher i)
    step (.goEvents i)
    let policies ← step .snapshot
    let _ ← step (.add i policies.checkpointDirectory)
    step (.waitDone i)
    step (.closeWatcher i)
    step .unlock
    step (.cancel i)

/-- `stop`. -/
def stop (i : ℕ) : Prog sig Unit := do
  step (.cancel i)
  step (.stopTimers i)
  step (.closeDone i)

/-- The markers of pinned archives. -/
def isMarker (path : String) : Bool :=
  Strings.hasSuffix path ".keep" || Strings.hasSuffix path ".keep.tmp"

/-- An event that counts as a write. -/
def arms (event : FsEvent) : Bool :=
  !(!event.create && !event.write) && !isMarker event.name

/-- The timer of a path is created if there is none, and starts again. -/
def arm (i : ℕ) (path : String) : Prog sig Unit := do
  match ← step (.lookupTimer i path) with
  | false => do
    step (.newTimer i path)
    step (.reset i path)
  | true => step (.reset i path)

/-- A round of the loop over the collector's channels: whether it goes on. -/
def eventLoop (i : ℕ) : Prog sig Bool := do
  let q ← step .readQuit
  match ← step (.select i q) with
  | .quit | .event none | .error none => do
    stop i
    return false
  | .event (some event) =>
    if arms event then do
      arm i event.name
      return true
    else return true
  | .error (some _) => return true

/-- `PodWatcher`. -/
def podWatcher (i : ℕ) : Prog sig Unit := do
  match ← step .kubernetesClient with
  | some _ => return ()
  | none =>
    step (.goInformer i)
    step (.waitDone i)

/-- A round of the informer's `controller.Run`, with its `DeleteFunc`. -/
def informer (i : ℕ) : Prog sig Bool := do
  match ← step (.notice i) with
  | .stopped => return false
  | .deleted none => return true
  | .deleted (some (ns, pod, containers)) => do
    containers.forM (fun container => step (.applyPolicies ⟨ns, pod, container⟩))
    return true

/-- The steps of `handleWriteFinished`, with the context of the collector. -/
def handler (i : ℕ) (path : String) : Prog sig Unit :=
  (handleWriteFinished path).interp (fun op => step (.write i op))

/-- What the goroutines run. -/
def body : Task → Prog sig Bool
  | .worker => do
    step .dequeue
    let _ ← reconcile
    return true
  | .collector i => do
    runGarbageCollector i
    return false
  | .events i => eventLoop i
  | .podWatcher i => do
    podWatcher i
    return false
  | .informer i => informer i
  | .handler i path _ => do
    handler i path
    return false
  | .immediately _ policies => do
    step (.applyPoliciesImmediately policies)
    return false

/-- The `go` statements. -/
def spawns : Event sig → Option Task
  | ⟨.goCollector, i⟩ => some (.collector i)
  | ⟨.goImmediately policies, n⟩ => some (.immediately n policies)
  | ⟨.goPodWatcher i, _⟩ => some (.podWatcher i)
  | ⟨.goEvents i, _⟩ => some (.events i)
  | ⟨.goInformer i, _⟩ => some (.informer i)
  | _ => none

/-! ### What is shared -/

/-- A channel without a buffer: nobody sends, a send waits, or its value was received and the sender
    has not gone on yet. -/
inductive Chan where
  | idle
  | offered
  | taken
  deriving DecidableEq

/-- An `fsnotify.Watcher`: not created, open with what was added to it, or closed. -/
inductive Watch where
  | absent
  | opened (directory : Option String)
  | closed
  deriving DecidableEq

/-- What a collector shares with its goroutines: whether `c` is closed and the context cancelled,
    the watcher, and the timers by their paths, each with the time it fires at if it is armed. -/
structure Locals where
  done : Bool
  cancelled : Bool
  watch : Watch
  timers : String → Option (Option ℤ)

/-- What all goroutines share.  `quit` is the channel in the variable; `channels`, `collectors`,
    `fired` and `immediates` count what was made; `panicked` is set by a second `close` of a channel
    and an `Unlock` of a mutex that is not locked. -/
structure Shared where
  vars : Variables
  quit : ℕ
  channels : ℕ
  chan : ℕ → Chan
  locked : Bool
  collectors : ℕ
  locals : ℕ → Locals
  fired : ℕ
  immediates : ℕ
  now : ℤ
  panicked : Bool

/-- `waitFor`, in nanoseconds. -/
def waitFor : ℤ := 1000000000

namespace Shared

/-- A channel changes. -/
def setChan (s : Shared) (q : ℕ) (c : Chan) : Shared :=
  { s with chan := Function.update s.chan q c }

/-- The variables of a collector change. -/
def modify (s : Shared) (i : ℕ) (f : Locals → Locals) : Shared :=
  { s with locals := Function.update s.locals i (f (s.locals i)) }

/-- The timer of a path changes. -/
def setTimer (s : Shared) (i : ℕ) (path : String) (t : Option ℤ) : Shared :=
  s.modify i (fun l => { l with timers := Function.update l.timers path (some t) })

/-- `ctx.Err` of a collector's context. -/
def ctxErr (s : Shared) (i : ℕ) : Option String :=
  if (s.locals i).cancelled then some "context canceled" else none

end Shared

/-- When a step can be made, with its answer. -/
def guard : (op : sig.Op) → Shared → sig.Reply op → Prop
  | .applySpec spec, s, r => r = ((applyPolicySpec spec s.vars).policies,
      (applyPolicySpec spec s.vars).restartGarbageCollector)
  | .offer, s, q => q = s.quit ∧ s.chan q = .idle
  | .taken q, s, _ => s.chan q = .taken
  | .goCollector, s, i => i = s.collectors
  | .goImmediately _, s, n => n = s.immediates
  | .lock, s, _ => s.locked = false
  | .readQuit, s, q => q = s.quit
  | .receive q, s, _ => s.chan q = .offered
  | .snapshot, s, r => r = currentPolicySnapshotLocked s.vars
  | .add i _, s, none => ∃ d, (s.locals i).watch = .opened d
  | .waitDone i, s, _ => (s.locals i).done = true
  | .select _ q, s, .quit => s.chan q = .offered
  -- the watcher's channels are closed by its `Close` only
  | .select i _, s, .event none | .select i _, s, .error none => (s.locals i).watch = .closed
  | .select i _, s, .event (some _) => ∃ d, (s.locals i).watch = .opened (some d)
  | .select i _, s, .error (some _) => ∃ d, (s.locals i).watch = .opened d
  | .lookupTimer i path, s, r => r = ((s.locals i).timers path).isSome
  | .notice i, s, .stopped => (s.locals i).done = true
  | .write i op, s, r => WriteOp.act op (s.ctxErr i) r (s.ctxErr i)
  | _, _, _ => True

/-- What a step does. -/
def effect : (op : sig.Op) → Shared → sig.Reply op → Shared
  | .applySpec spec, s, _ => { s with vars := (applyPolicySpec spec s.vars).vars }
  | .offer, s, q => s.setChan q .offered
  | .taken q, s, _ => s.setChan q .idle
  | .makeQuit, s, _ => { s with quit := s.channels, channels := s.channels + 1 }
  | .goCollector, s, _ => { s with collectors := s.collectors + 1 }
  | .goImmediately _, s, _ => { s with immediates := s.immediates + 1 }
  | .lock, s, _ => { s with locked := true }
  | .unlock, s, _ => { s with locked := false, panicked := s.panicked || !s.locked }
  | .newWatcher i, s, none => s.modify i (fun l => { l with watch := .opened none })
  | .receive q, s, _ | .select _ q, s, .quit => s.setChan q .taken
  | .add i directory, s, none => s.modify i (fun l => { l with watch := .opened (some directory) })
  | .closeWatcher i, s, _ => s.modify i (fun l => { l with watch := .closed })
  | .cancel i, s, _ => s.modify i (fun l => { l with cancelled := true })
  | .newTimer i path, s, _ => s.setTimer i path none
  | .reset i path, s, _ => s.setTimer i path (some (s.now + waitFor))
  | .stopTimers i, s, _ => s.modify i (fun l => { l with timers := fun _ => none })
  | .closeDone i, s, _ =>
      { s with panicked := s.panicked || (s.locals i).done }.modify i
        (fun l => { l with done := true })
  | _, s, _ => s

/-- The steps. -/
def act (op : sig.Op) (s : Shared) (r : sig.Reply op) (s' : Shared) : Prop :=
  guard op s r ∧ s' = effect op s r

/-- What happens by itself: time passes, and a timer whose time has come starts its handler. -/
inductive Happens : Shared → Option Task → Shared → Prop
  | tick {s : Shared} {t : ℤ} (h : s.now ≤ t) : Happens s none { s with now := t }
  | fire {s : Shared} {i : ℕ} {path : String} {t : ℤ}
      (htimer : (s.locals i).timers path = some (some t)) (h : t ≤ s.now) :
      Happens s (some (.handler i path s.fired))
        { s.setTimer i path none with fired := s.fired + 1 }

/-- The operator's goroutines. -/
def system : System sig Task Shared where
  body := body
  spawns := spawns
  act := act
  env := Happens

/-- The variables of a collector that has not begun. -/
def Locals.initial : Locals := ⟨false, false, .absent, fun _ => none⟩

/-- After `SetupWithManager`: the first channel is in the variable, the first collector was started,
    and the controller has its worker. -/
def setup (vars : Variables) (now : ℤ) : Config sig Task Shared where
  shared :=
    { vars, quit := 0, channels := 1, chan := fun _ => .idle, locked := false, collectors := 1
      locals := fun _ => .initial, fired := 0, immediates := 0, now, panicked := false }
  run := started body (some .worker) (started body (some (.collector 0)) (fun _ => none))

/-! ### Phases -/

/-- Where a goroutine is. -/
inductive Phase where
  -- the collector
  | begin
  | locked
  | parking
  | parked (q : ℕ)
  | opened
  | podsStarted
  | eventsStarted
  | configured (directory : String)
  | waiting
  | closing
  | leaving (watched : Bool)
  | unlocked (watched : Bool)
  | ended (watched : Bool)
  -- the goroutine over its channels
  | head
  | selecting (q : ℕ)
  | looking (path : String)
  | creating (path : String)
  | arming (path : String)
  | cancelling
  | stopping
  | finishing
  | stopped
  -- the worker
  | rest
  | reading
  | applying
  | restarting
  | sending (q : ℕ)
  | sent
  | renewed
  -- a handler that has just seen its context not cancelled, and any other goroutine
  | looked
  | free
  deriving DecidableEq

/-- The phase a goroutine begins in. -/
def entry : Task → Phase
  | .worker => .rest
  | .collector _ => .begin
  | .events _ => .head
  | _ => .free

/-- The step of a handler that applies the policies. -/
def Applies : WriteOp → Prop
  | .apply _ => True
  | _ => False

/-- What a goroutine may do in a phase. -/
inductive Permits : Task → Phase → sig.Op → Prop
  | dequeue : Permits .worker .rest .dequeue
  | goImmediately (policies : PolicySnapshot) : Permits .worker .rest (.goImmediately policies)
  | get : Permits .worker .reading .get
  | applySpec (spec : CheckpointRestoreOperatorSpec) :
      Permits .worker .applying (.applySpec spec)
  | offer : Permits .worker .restarting .offer
  | taken (q : ℕ) : Permits .worker (.sending q) (.taken q)
  | makeQuit : Permits .worker .sent .makeQuit
  | goCollector : Permits .worker .renewed .goCollector
  | lock (i : ℕ) : Permits (.collector i) .begin .lock
  | newWatcher (i : ℕ) : Permits (.collector i) .locked (.newWatcher i)
  | park (i : ℕ) : Permits (.collector i) .parking .readQuit
  | receive (i q : ℕ) : Permits (.collector i) (.parked q) (.receive q)
  | goPodWatcher (i : ℕ) : Permits (.collector i) .opened (.goPodWatcher i)
  | goEvents (i : ℕ) : Permits (.collector i) .podsStarted (.goEvents i)
  | snapshot (i : ℕ) : Permits (.collector i) .eventsStarted .snapshot
  | add (i : ℕ) (directory : String) :
      Permits (.collector i) (.configured directory) (.add i directory)
  | waitDone (i : ℕ) : Permits (.collector i) .waiting (.waitDone i)
  | closeWatcher (i : ℕ) : Permits (.collector i) .closing (.closeWatcher i)
  | unlock (i : ℕ) (watched : Bool) : Permits (.collector i) (.leaving watched) .unlock
  | cancel (i : ℕ) (watched : Bool) : Permits (.collector i) (.unlocked watched) (.cancel i)
  | readQuit (i : ℕ) : Permits (.events i) .head .readQuit
  | select (i q : ℕ) : Permits (.events i) (.selecting q) (.select i q)
  | lookupTimer (i : ℕ) (path : String) :
      Permits (.events i) (.looking path) (.lookupTimer i path)
  | newTimer (i : ℕ) (path : String) : Permits (.events i) (.creating path) (.newTimer i path)
  | reset (i : ℕ) (path : String) : Permits (.events i) (.arming path) (.reset i path)
  | stopContext (i : ℕ) : Permits (.events i) .cancelling (.cancel i)
  | stopTimers (i : ℕ) : Permits (.events i) .stopping (.stopTimers i)
  | closeDone (i : ℕ) : Permits (.events i) .finishing (.closeDone i)
  | kubernetesClient (i : ℕ) : Permits (.podWatcher i) .free .kubernetesClient
  | goInformer (i : ℕ) : Permits (.podWatcher i) .free (.goInformer i)
  | podsDone (i : ℕ) : Permits (.podWatcher i) .free (.waitDone i)
  | notice (i : ℕ) : Permits (.informer i) .free (.notice i)
  | applyPolicies (i : ℕ) (details : CheckpointDetails) :
      Permits (.informer i) .free (.applyPolicies details)
  | write (i : ℕ) (path : String) (n : ℕ) (φ : Phase) (op : WriteOp)
      (h : Applies op → φ = .looked) : Permits (.handler i path n) φ (.write i op)
  | applyPoliciesImmediately (n : ℕ) (policies : PolicySnapshot) :
      Permits (.immediately n policies) .free (.applyPoliciesImmediately policies)

/-- Where a step leads. -/
def next (φ : Phase) : Event sig → Phase
  | ⟨.dequeue, _⟩ => .reading
  | ⟨.get, .found _⟩ => .applying
  | ⟨.get, _⟩ => .rest
  | ⟨.applySpec _, (_, true)⟩ => .restarting
  | ⟨.applySpec _, (_, false)⟩ => .rest
  | ⟨.offer, q⟩ => .sending q
  | ⟨.taken _, _⟩ => .sent
  | ⟨.makeQuit, _⟩ => .renewed
  | ⟨.goCollector, _⟩ => .rest
  | ⟨.goImmediately _, _⟩ => .rest
  | ⟨.lock, _⟩ => .locked
  | ⟨.newWatcher _, none⟩ => .opened
  | ⟨.newWatcher _, some _⟩ => .parking
  | ⟨.readQuit, q⟩ => match φ with
    | .parking => .parked q
    | _ => .selecting q
  | ⟨.receive _, _⟩ => .leaving false
  | ⟨.goPodWatcher _, _⟩ => .podsStarted
  | ⟨.goEvents _, _⟩ => .eventsStarted
  | ⟨.snapshot, policies⟩ => .configured (PolicySnapshot.checkpointDirectory policies)
  | ⟨.add _ _, _⟩ => .waiting
  | ⟨.waitDone _, _⟩ => match φ with
    | .waiting => .closing
    | φ => φ
  | ⟨.closeWatcher _, _⟩ => .leaving true
  | ⟨.unlock, _⟩ => match φ with
    | .leaving watched => .unlocked watched
    | φ => φ
  | ⟨.cancel _, _⟩ => match φ with
    | .unlocked watched => .ended watched
    | _ => .stopping
  | ⟨.select _ _, .event (some event)⟩ => if arms event then .looking event.name else .head
  | ⟨.select _ _, .error (some _)⟩ => .head
  | ⟨.select _ _, _⟩ => .cancelling
  | ⟨.lookupTimer _ path, true⟩ => .arming path
  | ⟨.lookupTimer _ path, false⟩ => .creating path
  | ⟨.newTimer _ path, _⟩ => .arming path
  | ⟨.reset _ _, _⟩ => .head
  | ⟨.stopTimers _, _⟩ => .finishing
  | ⟨.closeDone _, _⟩ => .stopped
  | ⟨.write _ .ctxErr, none⟩ => .looked
  | _ => .free

/-- The phases in which a goroutine may end. -/
def Ends : Task → Phase → Prop
  | .worker, _ => False
  | .collector _, .ended _ => True
  | .collector _, _ => False
  | .events _, .stopped => True
  | .events _, _ => False
  | _, _ => True

/-- The phases of the operator's goroutines. -/
def phases : Discipline sig Task Phase where
  entry := entry
  permits := Permits
  next := next
  done := Ends

/-! ### The code keeps to the phases -/

section Follow
variable {t : Task} {φ : Phase} {α : Type} {Q : α → Phase → Prop}

/-- A step that the phase permits, and what follows from where it leads. -/
theorem wp_step {op : sig.Op} {k : sig.Reply op → Prog sig α} (hpre : Permits t φ op)
    (hk : ∀ r, wp (phases.contract t) (k r) Q (next φ ⟨op, r⟩)) :
    wp (phases.contract t) (step op >>= k) Q φ :=
  ⟨hpre, fun r _ hφ => hφ ▸ hk r⟩

/-- The same for a last step. -/
theorem wp_last {op : sig.Op} {Q : sig.Reply op → Phase → Prop} (hpre : Permits t φ op)
    (hQ : ∀ r, Q r (next φ ⟨op, r⟩)) : wp (phases.contract t) (step op) Q φ :=
  ⟨hpre, fun r _ hφ => hφ ▸ hQ r⟩

theorem restartGarbageCollector_follows :
    wp (phases.contract .worker) restartGarbageCollector (fun _ φ => φ = .rest) .restarting := by
  refine wp_step .offer (fun (q : ℕ) => ?_)
  refine wp_step (.taken q) (fun _ => ?_)
  refine wp_step .makeQuit (fun _ => ?_)
  exact wp_step .goCollector (fun _ => rfl)

theorem settle_follows (input : Input) (policies : PolicySnapshot) :
    wp (phases.contract .worker) (settle input policies) (fun _ φ => φ = .rest) .rest := by
  unfold settle
  split_ifs
  · exact wp_step (.goImmediately policies) (fun _ => rfl)
  · rfl

theorem reconcile_follows :
    wp (phases.contract .worker) reconcile (fun _ φ => φ = .rest) .reading := by
  refine wp_step .get (fun (reply : ApiReply Input) => ?_)
  cases reply with
  | notFound => rfl
  | failed err => rfl
  | found input =>
    refine wp_step (.applySpec input.spec) ?_
    rintro ⟨policies, restart⟩
    cases restart with
    | false => exact settle_follows input policies
    | true =>
      show wp _ (restartGarbageCollector >>= _) _ _
      rw [wp_bind]
      refine wp_mono ?_ restartGarbageCollector_follows
      rintro _ _ rfl
      exact settle_follows input policies

theorem runGarbageCollector_follows (i : ℕ) :
    wp (phases.contract (.collector i)) (runGarbageCollector i)
      (fun _ φ => ∃ watched, φ = .ended watched) .begin := by
  refine wp_step (.lock i) (fun _ => ?_)
  refine wp_step (.newWatcher i) (fun (err : Option String) => ?_)
  cases err with
  | some err =>
    refine wp_step (.park i) (fun (q : ℕ) => ?_)
    refine wp_step (.receive i q) (fun _ => ?_)
    refine wp_step (.unlock i false) (fun _ => ?_)
    exact wp_last (.cancel i false) (fun _ => ⟨false, rfl⟩)
  | none =>
    refine wp_step (.goPodWatcher i) (fun _ => ?_)
    refine wp_step (.goEvents i) (fun _ => ?_)
    refine wp_step (.snapshot i) (fun _ => ?_)
    refine wp_step (.add i _) (fun _ => ?_)
    refine wp_step (.waitDone i) (fun _ => ?_)
    refine wp_step (.closeWatcher i) (fun _ => ?_)
    refine wp_step (.unlock i true) (fun _ => ?_)
    exact wp_last (.cancel i true) (fun _ => ⟨true, rfl⟩)

theorem stop_follows (i : ℕ) :
    wp (phases.contract (.events i)) (stop i) (fun _ φ => φ = .stopped) .cancelling := by
  refine wp_step (.stopContext i) (fun _ => ?_)
  refine wp_step (.stopTimers i) (fun _ => ?_)
  exact wp_last (.closeDone i) (fun _ => rfl)

theorem arm_follows (i : ℕ) (path : String) :
    wp (phases.contract (.events i)) (arm i path) (fun _ φ => φ = .head) (.looking path) := by
  refine wp_step (.lookupTimer i path) (fun (found : Bool) => ?_)
  cases found with
  | false =>
    refine wp_step (.newTimer i path) (fun _ => ?_)
    exact wp_last (.reset i path) (fun _ => rfl)
  | true => exact wp_last (.reset i path) (fun _ => rfl)

theorem eventLoop_follows (i : ℕ) : phases.Owes (.events i) (eventLoop i) .head := by
  have hstop : wp (phases.contract (.events i)) (do stop i; return false)
      (fun again φ' => if again then φ' = .head else Ends (.events i) φ') .cancelling := by
    rw [wp_bind]
    refine wp_mono ?_ (stop_follows i)
    rintro _ _ rfl
    trivial
  refine wp_step (.readQuit i) (fun (q : ℕ) => ?_)
  refine wp_step (.select i q) (fun (received : Received) => ?_)
  rcases received with _ | (_ | event) | (_ | err)
  · exact hstop
  · exact hstop
  · show wp _ (if arms event then _ else _) _ (if arms event then _ else _)
    split_ifs
    · show wp _ (arm i event.name >>= _) _ _
      rw [wp_bind]
      refine wp_mono ?_ (arm_follows i event.name)
      rintro _ _ rfl
      rfl
    · rfl
  · exact hstop
  · rfl

theorem podWatcher_follows (i : ℕ) :
    wp (phases.contract (.podWatcher i)) (podWatcher i) (fun _ _ => True) .free := by
  refine wp_step (.kubernetesClient i) (fun (err : Option String) => ?_)
  cases err with
  | some err => trivial
  | none =>
    refine wp_step (.goInformer i) (fun _ => ?_)
    exact wp_last (.podsDone i) (fun _ => trivial)

theorem informer_follows (i : ℕ) : phases.Owes (.informer i) (informer i) .free := by
  refine wp_step (.notice i) (fun (notice : Notice) => ?_)
  rcases notice with _ | (_ | ⟨ns, pod, containers⟩)
  · trivial
  · rfl
  · show wp _ (containers.forM _ >>= _) _ _
    rw [wp_bind]
    refine wp_mono ?_ (wp_forM (I := fun φ => φ = .free) (fun φ container _ hφ => ?_) rfl)
    · rintro _ _ rfl
      rfl
    · subst hφ
      exact wp_last (.applyPolicies i _) (fun _ => rfl)

/-- The handler has just been told that its context is not cancelled. -/
def seen : Event writeSig → Bool
  | ⟨.ctxErr, none⟩ => true
  | _ => false

/-- The contract of the handler: policies are applied right after such an answer. -/
def lookContract : Contract writeSig Bool where
  pre op fresh := Applies op → fresh = true
  post op _ r fresh := fresh = seen ⟨op, r⟩

/-- The loop applies nothing. -/
theorem issues_readAttempts (path : String) (retryDelay : ℤ) (left : ℕ) (err : Option String) :
    Issues (fun op : writeSig.Op => ¬ Applies op) (readAttempts path retryDelay left err) := by
  induction left generalizing err with
  | zero => trivial
  | succ left ih =>
    refine Issues.bind (Issues.perform id) (fun (c : Option String) => ?_)
    cases c with
    | some cancelled => trivial
    | none =>
      refine Issues.bind (Issues.perform id) ?_
      rintro ⟨details, readErr⟩
      cases readErr with
      | none => trivial
      | some readErr =>
        show Issues _ (if left = 0 then _ else if retryDelay ≤ 0 then _ else _)
        split_ifs
        · trivial
        · exact ih _
        · refine Issues.bind (Issues.perform id) (fun (w : Option String) => ?_)
          cases w with
          | none => exact ih _
          | some cancelled => trivial

theorem handleWriteFinished_looks (path : String) (fresh : Bool) :
    wp lookContract (handleWriteFinished path) (fun _ _ => True) fresh := by
  rw [handleWriteFinished, handleWriteFinishedWithReader, wp_bind]
  refine wp_mono ?_ (wp_of_issues (I := fun _ => True)
    (fun op v hop _ => ⟨fun happlies => absurd happlies hop, fun _ _ _ => trivial⟩)
    (issues_readAttempts _ _ _ _) trivial)
  rintro ⟨details, readErr⟩ fresh -
  cases readErr with
  | some readErr => exact ⟨False.elim, fun _ _ _ => trivial⟩
  | none =>
    refine ⟨False.elim, ?_⟩
    rintro (c : Option String) fresh' hfresh
    cases c with
    | some err => trivial
    | none => exact ⟨fun _ => hfresh, fun _ _ _ => trivial⟩

theorem next_write (i : ℕ) (op : WriteOp) (r : writeSig.Reply op) :
    next φ ⟨.write i op, r⟩ = if seen ⟨op, r⟩ then .looked else .free := by
  cases op with
  | ctxErr => cases (r : Option String) <;> rfl
  | read path => rfl
  | wait delay => rfl
  | apply details => rfl

theorem handler_follows (i : ℕ) (path : String) (n : ℕ) :
    wp (phases.contract (.handler i path n)) (handler i path) (fun _ _ => True) .free := by
  refine wp_mono (fun _ _ _ => trivial) (wp_interp
    (R := fun (fresh : Bool) φ => φ = if fresh then Phase.looked else Phase.free)
    (fun op fresh φ hR hpre => ?_) (handleWriteFinished_looks path false) rfl)
  refine wp_last (.write i path n φ op (fun happlies => ?_)) (fun r => ⟨_, rfl, next_write i op r⟩)
  rw [hR, hpre happlies]
  rfl

end Follow

/-- **The code keeps to the phases.** -/
theorem phases_followed (t : Task) : phases.Owes t (body t) (entry t) := by
  cases t with
  | worker =>
    refine wp_step .dequeue (fun _ => ?_)
    rw [wp_bind]
    refine wp_mono ?_ reconcile_follows
    rintro _ _ rfl
    rfl
  | collector i =>
    show wp _ (runGarbageCollector i >>= _) _ _
    rw [wp_bind]
    refine wp_mono ?_ (runGarbageCollector_follows i)
    rintro _ _ ⟨watched, rfl⟩
    trivial
  | events i => exact eventLoop_follows i
  | podWatcher i =>
    show wp _ (podWatcher i >>= _) _ _
    rw [wp_bind]
    exact wp_mono (fun _ _ _ => trivial) (podWatcher_follows i)
  | informer i => exact informer_follows i
  | handler i path n =>
    show wp _ (handler i path >>= _) _ _
    rw [wp_bind]
    exact wp_mono (fun _ _ _ => trivial) (handler_follows i path n)
  | immediately n policies =>
    exact wp_step (.applyPoliciesImmediately n policies) (fun _ => trivial)

end CheckpointRestore.Retention.Watcher
