import CheckpointRestore.Schedule.Rounds

namespace CheckpointRestore.Schedule.Lifecycle

open Interaction
open Forensic (Condition UpdateReply Outcome defaultRetrySteps)

/-!
# `CheckpointSchedule` — the reconciler

The program of a reconcile: it starts the poll-based triggers of a `CheckpointSchedule` and records
them under the object's key, stops them when the object is deleted, and runs the periodic
checkpoints in between.

* `Object`, `Trigger` — what is stored, and what is started;
* `reconcileInterval` — the periodic checkpoints: `runScheduledCheckpoints` and `recordRun`;
* `reconcile` — the whole program;
* `change` — what others do to an object.
-/

/-! ### The object and its triggers -/

/-- `CheckpointScheduleStatus`. -/
structure Status where
  conditions : List Condition
  lastCheckpointTime : Option ℤ
  checkpointsCreated : Int64
  deriving DecidableEq

/-- A stored `CheckpointSchedule`. -/
structure Object where
  spec : Spec
  deletionTimestamp : Option ℤ
  finalizers : List String
  creationTimestamp : ℤ
  status : Status
  resourceVersion : ℕ
  deriving DecidableEq

/-- `checkpointScheduleFinalizer`. -/
def checkpointScheduleFinalizer : String := "criu.org/checkpoint-schedule-finalizer"

/-- The poll-based triggers. -/
inductive Kind where
  | annotationTrigger
  | resourceTrigger
  | eventTrigger
  deriving DecidableEq

/-- A trigger keeps the schedule it is created with. -/
structure Trigger where
  key : String
  kind : Kind
  spec : Spec

/-- What a trigger does at its polls: the pods it selects, and what it looks for. -/
structure Job where
  kind : Kind
  ns : String
  selector : String
  containerNames : List String
  resourceThreshold : Option ResourceThresholdSpec
  events : List String
  deriving DecidableEq

/-- The part of a schedule that a trigger of the kind reads. -/
def job (kind : Kind) (spec : Spec) : Job where
  kind := kind
  ns := spec.ns
  selector := spec.selector
  containerNames := spec.containerNames
  resourceThreshold := if kind = .resourceTrigger then spec.triggers.resourceThreshold else none
  events := if kind = .eventTrigger then spec.triggers.onKubernetesEvents else []

def Trigger.job (t : Trigger) : Job := Lifecycle.job t.kind t.spec

/-! ### Operations -/

/-- What `r.Get` finds. -/
inductive GetReply where
  | found (schedule : Object)
  | notFound
  | failed (msg : String)

/-- What a reconcile does, and what others do to a stored object.  The accesses to the map
    `activeTriggers` happen under its mutex; `fanOut` starts goroutines, waits for them and loads
    their counter. -/
inductive Op where
  | get (key : String)
  | update (key : String) (schedule : Object)
  | statusUpdate (key : String) (schedule : Object)
  | running (key : String)
  | startTrigger (t : Trigger)
  | record (key : String) (triggers : List ℕ)
  | recorded (key : String)
  | stop (trigger : ℕ)
  | forget (key : String)
  | now
  | listPods (ns selector : String)
  | fanOut (goroutines : List (Prog callSig Unit))
  | change (key : String) (schedule : Option Object)

/-- The effect signature. -/
def sig : Signature where
  Op := Op
  Reply
    | .get _ => GetReply
    | .update _ _ => UpdateReply
    | .statusUpdate _ _ => UpdateReply
    | .running _ => Bool
    | .startTrigger _ => ℕ
    | .record _ _ => Unit
    | .recorded _ => List ℕ
    | .stop _ => Unit
    | .forget _ => Unit
    | .now => ℤ
    | .listPods _ _ => Except String (List Pod)
    | .fanOut _ => Int32
    | .change _ _ => Unit

/-- `r.Get`. -/
def get (key : String) : Prog sig GetReply := .perform (S := sig) (Op.get key)

/-- `r.Update`. -/
def update (key : String) (schedule : Object) : Prog sig UpdateReply :=
  .perform (S := sig) (Op.update key schedule)

/-- `r.Status().Update`. -/
def statusUpdate (key : String) (schedule : Object) : Prog sig UpdateReply :=
  .perform (S := sig) (Op.statusUpdate key schedule)

/-- Whether `activeTriggers` has the key. -/
def running (key : String) : Prog sig Bool := .perform (S := sig) (Op.running key)

/-- A trigger is created and started; the reply identifies it. -/
def startTrigger (t : Trigger) : Prog sig ℕ := .perform (S := sig) (Op.startTrigger t)

/-- `r.activeTriggers[key] = triggers`. -/
def record (key : String) (triggers : List ℕ) : Prog sig Unit :=
  .perform (S := sig) (Op.record key triggers)

/-- `r.activeTriggers[key]`. -/
def recorded (key : String) : Prog sig (List ℕ) := .perform (S := sig) (Op.recorded key)

/-- `t.Stop()`. -/
def stop (trigger : ℕ) : Prog sig PUnit := .perform (S := sig) (Op.stop trigger)

/-- `delete(r.activeTriggers, key)`. -/
def forget (key : String) : Prog sig Unit := .perform (S := sig) (Op.forget key)

/-- `time.Now`. -/
def now : Prog sig ℤ := .perform (S := sig) Op.now

/-- The `List` call of `getMatchingPods`. -/
def listPods (ns selector : String) : Prog sig (Except String (List Pod)) :=
  .perform (S := sig) (Op.listPods ns selector)

/-- The goroutines, `wg.Wait()` and `created.Load()`. -/
def fanOut (goroutines : List (Prog callSig Unit)) : Prog sig Int32 :=
  .perform (S := sig) (Op.fanOut goroutines)

/-! ### The reconciler -/

/-- `getMatchingPods`: only running pods count. -/
def getMatchingPods (ns selector : String) : Prog sig (Except String (List Pod)) := do
  match ← listPods ns selector with
  | .error e => return .error e
  | .ok pods => return .ok (pods.filter (fun pod => pod.running))

/-- `runScheduledCheckpoints`: how many checkpoints were created. -/
def runScheduledCheckpoints (spec : Spec) : Prog sig Int32 := do
  match ← getMatchingPods spec.ns spec.selector with
  | .error _ => return 0
  | .ok pods => fanOut ((targets spec.containerNames pods).map goroutine)

/-- What an attempt to record a round writes. -/
def recordedRun (latest : Object) (t : ℤ) (created : Int32) : Object :=
  { latest with status := { latest.status with
      lastCheckpointTime := some t
      checkpointsCreated := latest.status.checkpointsCreated + created.toInt64 } }

/-- The status update of `reconcileInterval`, with the attempts `RetryOnConflict` has left. -/
def recordRun (key : String) (t : ℤ) (created : Int32) : ℕ → Prog sig (Option String)
  | 0 => return none
  | attempts + 1 => do
    match ← get key with
    | .notFound => return some "not found"
    | .failed e => return some e
    | .found latest =>
      match ← statusUpdate key (recordedRun latest t created) with
      | .ok => return none
      | .failed e => return some e
      | .conflict e => if attempts = 0 then return some e else recordRun key t created attempts

/-- `reconcileInterval`. -/
def reconcileInterval (key : String) (schedule : Object) : Prog sig Outcome :=
  match schedule.spec.triggers.interval with
  | none => return .done
  | some interval => do
    let last := schedule.status.lastCheckpointTime.getD schedule.creationTimestamp
    let t ← now
    if t < last + interval then return .requeueAfter (last + interval - t)
    else do
      let created ← runScheduledCheckpoints schedule.spec
      match ← recordRun key t created defaultRetrySteps with
      | some e => return .error e
      | none => return .requeueAfter interval

/-- A trigger is started if it is configured. -/
def startIf (configured : Bool) (t : Trigger) (triggers : List ℕ) : Prog sig (List ℕ) :=
  if configured then do
    let trigger ← startTrigger t
    return triggers ++ [trigger]
  else return triggers

/-- The poll-based triggers of the spec are started. -/
def startTriggers (key : String) (spec : Spec) : Prog sig (List ℕ) := do
  let triggers ← startIf spec.triggers.onAnnotation ⟨key, .annotationTrigger, spec⟩ []
  let triggers ← startIf spec.triggers.resourceThreshold.isSome
    ⟨key, .resourceTrigger, spec⟩ triggers
  startIf (spec.triggers.onKubernetesEvents ≠ []) ⟨key, .eventTrigger, spec⟩ triggers

/-- The triggers are started once. -/
def ensureTriggers (key : String) (spec : Spec) : Prog sig Unit := do
  match ← running key with
  | true => return ()
  | false => do
    let triggers ← startTriggers key spec
    record key triggers

/-- `stopTriggers`. -/
def stopTriggers (key : String) : Prog sig Unit := do
  let triggers ← recorded key
  triggers.forM stop
  forget key

/-- `r.Update` and its error. -/
def write (key : String) (schedule : Object) : Prog sig Outcome := do
  match ← update key schedule with
  | .ok => return .done
  | .conflict e => return .error e
  | .failed e => return .error e

/-- The object is being deleted. -/
def reconcileDeleted (key : String) (schedule : Object) : Prog sig Outcome := do
  stopTriggers key
  if checkpointScheduleFinalizer ∈ schedule.finalizers then
    write key { schedule with
      finalizers := schedule.finalizers.filter (fun f => f ≠ checkpointScheduleFinalizer) }
  else return .done

/-- The object is there to stay. -/
def reconcileLive (key : String) (schedule : Object) : Prog sig Outcome := do
  ensureTriggers key schedule.spec
  reconcileInterval key schedule

/-- `Reconcile`. -/
def reconcile (key : String) : Prog sig Outcome := do
  match ← get key with
  | .notFound => return .done
  | .failed e => return .error e
  | .found schedule =>
    if schedule.deletionTimestamp.isSome then reconcileDeleted key schedule
    else if checkpointScheduleFinalizer ∉ schedule.finalizers then
      write key { schedule with
        finalizers := schedule.finalizers ++ [checkpointScheduleFinalizer] }
    else reconcileLive key schedule

/-- Somebody else creates, edits or removes the object. -/
def change (key : String) (schedule : Option Object) : Prog sig Outcome := do
  let _ ← Prog.perform (S := sig) (Op.change key schedule)
  return .done

/-! ### Which operations -/

/-- The running pods that a listing brings. -/
def listed : Except String (List Pod) → List Pod
  | .ok pods => pods.filter (fun pod => pod.running)
  | .error _ => []

/-- A round, whatever the operations do: the pods are listed, and if that succeeds, the goroutines
    of the selected containers are run. -/
theorem of_runScheduledCheckpoints {σ : Type} {act : (op : sig.Op) → σ → sig.Reply op → σ → Prop}
    {spec : Spec} {s s' : σ} {tr : List (Event sig)} {created : Int32}
    (hrun : Runs act (runScheduledCheckpoints spec) s tr created s') :
    ∃ (reply : Except String (List Pod)) (s₁ : σ),
      act (.listPods spec.ns spec.selector) s reply s₁ ∧
      ((∃ e, reply = .error e) ∧ tr = [⟨.listPods spec.ns spec.selector, reply⟩] ∧
          created = 0 ∧ s' = s₁ ∨
        tr = [⟨.listPods spec.ns spec.selector, reply⟩,
          ⟨.fanOut ((targets spec.containerNames (listed reply)).map goroutine), created⟩] ∧
          act (.fanOut ((targets spec.containerNames (listed reply)).map goroutine)) s₁ created
            s') := by
  unfold runScheduledCheckpoints getMatchingPods at hrun
  obtain ⟨_, _, _, _, rfl, hlist, hrest⟩ := hrun.of_bind
  obtain ⟨reply, _, s₁, rfl, hact, hreturn⟩ := hlist.of_call
  refine ⟨reply, s₁, hact, ?_⟩
  cases reply with
  | error e =>
    obtain ⟨rfl, rfl, rfl⟩ := hreturn.of_pure
    obtain ⟨rfl, rfl, rfl⟩ := hrest.of_pure
    exact .inl ⟨⟨e, rfl⟩, rfl, rfl, rfl⟩
  | ok pods =>
    obtain ⟨rfl, rfl, rfl⟩ := hreturn.of_pure
    have hfan : Runs act (fanOut _) _ _ _ _ := hrest
    obtain ⟨rfl, hacts⟩ := hfan.of_perform
    exact .inr ⟨rfl, hacts⟩

section Issues
variable {P : sig.Op → Prop} {key : String}

theorem issues_runScheduledCheckpoints (hlist : ∀ ns selector, P (.listPods ns selector))
    (hfan : ∀ goroutines, P (.fanOut goroutines))
    (spec : Spec) : Issues P (runScheduledCheckpoints spec) := by
  unfold runScheduledCheckpoints getMatchingPods
  refine Issues.bind (Issues.bind (Issues.perform (hlist _ _)) ?_) ?_
  · rintro (e | pods) <;> exact Issues.pure _
  · rintro (e | pods)
    · exact Issues.pure _
    · exact Issues.perform (hfan _)

theorem issues_recordRun (hget : P (.get key)) (hupdate : ∀ o, P (.statusUpdate key o))
    (t : ℤ) (created : Int32) (attempts : ℕ) : Issues P (recordRun key t created attempts) := by
  induction attempts with
  | zero => exact Issues.pure _
  | succ attempts ih =>
    unfold recordRun
    refine Issues.bind (Issues.perform hget) ?_
    rintro (latest | - | e)
    · refine Issues.bind (Issues.perform (hupdate _)) ?_
      rintro (- | e | e)
      · exact Issues.pure _
      · dsimp only
        split
        · exact Issues.pure _
        · exact ih
      · exact Issues.pure _
    · exact Issues.pure _
    · exact Issues.pure _

end Issues

end CheckpointRestore.Schedule.Lifecycle
