import CheckpointRestore.Lib.Exclusive
import CheckpointRestore.Forensic.Chain
import CheckpointRestore.PodRestore.Render
import CheckpointRestore.Pinning.CrashSafe

namespace CheckpointRestore.Restore

open Interaction Go
open Forensic (Condition ConditionStatus setStatusCondition truncate)

/-!
# Reconciling a `PodRestore` — `podrestore_controller.go`

The controller holds a finalizer on every `PodRestore`, pins the source checkpoints, creates the
restore Pod and maps what it observes onto the conditions.  It runs against an API server, the
checkpoint directory and everybody else who uses them.

* `RestoreOp` — the calls of a reconcile and the actions of everybody else;
* `reconcile` — the program, with all its exits and their texts;
* `Cluster` — the stored objects, the Pods, the nodes and the files, and beside them what the
  controller has done (`created`, `released`);
* `Cluster.act` — the effects; with `faulty` every call of the API may fail, before or after it
  took effect, and so may every call on a marker;
* `world` — reconciles of any keys, one at a time for each key, among the actions of others.
-/

variable {ρ : Type}

/-! ### Objects -/

/-- The namespace and the name of an object.  A namespace has no slash, a name is not empty. -/
structure ObjectKey where
  ns : String
  name : String
  ns_slash : '/' ∉ ns.toList
  name_ne : name ≠ ""
  deriving DecidableEq

/-- `podRestoreFinalizer`. -/
def podRestoreFinalizer : String := "criu.org/pod-restore-finalizer"

/-- `podRestoreOwnerKey`. -/
def podRestoreOwnerKey (key : ObjectKey) : String := key.ns ++ "/" ++ key.name

/-- `PodRestoreStatus`. -/
structure PodRestoreStatus where
  conditions : List Condition
  podName : String
  observedGeneration : ℤ
  deriving DecidableEq

/-- A status as the API server stores it: every time in whole seconds. -/
def PodRestoreStatus.stored (st : PodRestoreStatus) : PodRestoreStatus :=
  { st with
    conditions := st.conditions.map
      (fun c => { c with lastTransitionTime := truncate c.lastTransitionTime }) }

/-- A stored `PodRestore`; its name and its namespace are the key it is stored under. -/
structure PodRestoreObject (ρ : Type) where
  uid : ℕ
  resourceVersion : ℕ
  generation : ℤ
  deleting : Bool
  finalizers : List String
  targetNode : String
  checkpoints : List ContainerCheckpoint
  template : PodTemplateSpec ρ
  status : PodRestoreStatus

/-- What validation and rendering read. -/
def PodRestoreObject.podRestore (o : PodRestoreObject ρ) (key : ObjectKey) : PodRestore ρ where
  name := key.name
  ns := key.ns
  targetNode := o.targetNode
  checkpoints := o.checkpoints
  template := o.template

/-- The archives the spec names. -/
def PodRestoreObject.paths (o : PodRestoreObject ρ) : List String :=
  o.checkpoints.map ContainerCheckpoint.path

/-- The controller's finalizer is on the object. -/
def PodRestoreObject.Held (o : PodRestoreObject ρ) : Prop := podRestoreFinalizer ∈ o.finalizers

instance (o : PodRestoreObject ρ) : Decidable o.Held :=
  inferInstanceAs (Decidable (podRestoreFinalizer ∈ o.finalizers))

/-- `corev1.PodPhase`. -/
inductive PodPhase where
  | unset
  | pending
  | running
  | succeeded
  | failed
  | unknown
  deriving DecidableEq

/-- A Pod with the UID in its controller reference and its status. -/
structure PodObject (ρ : Type) where
  pod : Pod ρ
  controllerUID : Option ℕ
  phase : PodPhase
  reason : String

/-! ### Operations -/

/-- What a read finds. -/
inductive Read (α : Type) where
  | found (object : α)
  | notFound
  | failed

/-- How `r.Create` ends. -/
inductive CreateReply where
  | created
  | alreadyExists
  | failed

/-- What everybody else does: to the `PodRestore` objects, to Pods and nodes, and to the files. -/
inductive Action (ρ : Type) where
  | create (key : ObjectKey) (finalizers : List String) (targetNode : String)
      (checkpoints : List ContainerCheckpoint) (template : PodTemplateSpec ρ)
  | delete (key : ObjectKey)
  | editFinalizers (key : ObjectKey) (finalizers : List String)
  | createPod (key : ObjectKey) (pod : PodObject ρ)
  | setPodStatus (key : ObjectKey) (phase : PodPhase) (reason : String)
  | deletePod (key : ObjectKey)
  | addNode (name : String)
  | removeNode (name : String)
  | files (fs : FS)

/-- The calls of a reconcile, and the actions of others.  A pin and an unpin are one operation
    each: they run under `podRestorePinMu`. -/
inductive RestoreOp (ρ : Type) where
  | get (key : ObjectKey)
  | patchFinalizers (key : ObjectKey) (finalizers : List String)
  | rangeKeys (m : StringMap)
  | getNode (name : String)
  | pin (path owner : String)
  | unpin (path owner : String)
  | getPod (key : ObjectKey)
  | render (pr : PodRestore ρ)
  | createPod (key : ObjectKey) (pod : PodObject ρ)
  | now
  | updateStatus (key : ObjectKey) (resourceVersion : ℕ) (status : PodRestoreStatus)
  | other (a : Action ρ)

/-- The effect signature.  A patch and an update answer whether they succeeded, a pin whether it
    was written, and an unpin whether every call of it succeeded, which is only logged. -/
def sig (ρ : Type) : Signature where
  Op := RestoreOp ρ
  Reply
    | .get _ => Read (PodRestoreObject ρ)
    | .patchFinalizers _ _ => Bool
    | .rangeKeys _ => List String
    | .getNode _ => Read Unit
    | .pin _ _ => Bool
    | .unpin _ _ => Bool
    | .getPod _ => Read (PodObject ρ)
    | .render _ => Except RenderError (Pod ρ)
    | .createPod _ _ => CreateReply
    | .now => ℤ
    | .updateStatus _ _ _ => Bool
    | .other _ => Unit

section Calls

/-- `r.Get` of the `PodRestore`. -/
def get (key : ObjectKey) : Prog (sig ρ) (Read (PodRestoreObject ρ)) :=
  .perform (S := sig ρ) (.get key)

/-- `r.Patch` of `metadata.finalizers`. -/
def patchFinalizers (key : ObjectKey) (finalizers : List String) : Prog (sig ρ) Bool :=
  .perform (S := sig ρ) (.patchFinalizers key finalizers)

/-- The order in which `range` visits the keys of a map. -/
def rangeKeys (m : StringMap) : Prog (sig ρ) (List String) :=
  .perform (S := sig ρ) (.rangeKeys m)

/-- `r.Get` of a node. -/
def getNode (name : String) : Prog (sig ρ) (Read Unit) := .perform (S := sig ρ) (.getNode name)

/-- `pinCheckpoint`. -/
def pin (path owner : String) : Prog (sig ρ) Bool := .perform (S := sig ρ) (.pin path owner)

/-- `unpinCheckpoint`. -/
def unpin (path owner : String) : Prog (sig ρ) Bool := .perform (S := sig ρ) (.unpin path owner)

/-- `r.Get` of the restore Pod. -/
def getPod (key : ObjectKey) : Prog (sig ρ) (Read (PodObject ρ)) :=
  .perform (S := sig ρ) (.getPod key)

/-- `r.renderPod`. -/
def render (pr : PodRestore ρ) : Prog (sig ρ) (Except RenderError (Pod ρ)) :=
  .perform (S := sig ρ) (.render pr)

/-- `r.Create` of the restore Pod. -/
def createPod (key : ObjectKey) (pod : PodObject ρ) : Prog (sig ρ) CreateReply :=
  .perform (S := sig ρ) (.createPod key pod)

/-- `time.Now`. -/
def now : Prog (sig ρ) ℤ := .perform (S := sig ρ) .now

/-- `r.Status().Update`. -/
def updateStatus (key : ObjectKey) (resourceVersion : ℕ) (status : PodRestoreStatus) :
    Prog (sig ρ) Bool :=
  .perform (S := sig ρ) (.updateStatus key resourceVersion status)

end Calls

/-! ### Rules for the calls -/

variable {key : ObjectKey}

section Rules
variable {V : Type} {C : Contract (sig ρ) V} {v : V} {Q : Bool → V → Prop}

theorem wp_get {Q : Read (PodRestoreObject ρ) → V → Prop} (hpre : C.pre (.get key) v)
    (h : ∀ x w, C.post (.get key) v x w → Q x w) :
    wp C (get key) Q v := ⟨hpre, h⟩

theorem wp_patchFinalizers {finalizers : List String}
    (hpre : C.pre (.patchFinalizers key finalizers) v)
    (h : ∀ x w, C.post (.patchFinalizers key finalizers) v x w → Q x w) :
    wp C (patchFinalizers key finalizers) Q v := ⟨hpre, h⟩

theorem wp_rangeKeys {map : StringMap} {Q : List String → V → Prop}
    (hpre : C.pre (.rangeKeys map) v) (h : ∀ x w, C.post (.rangeKeys map) v x w → Q x w) :
    wp C (rangeKeys map) Q v := ⟨hpre, h⟩

theorem wp_getNode {name : String} {Q : Read Unit → V → Prop} (hpre : C.pre (.getNode name) v)
    (h : ∀ x w, C.post (.getNode name) v x w → Q x w) : wp C (getNode name) Q v := ⟨hpre, h⟩

theorem wp_pin {path owner : String} (hpre : C.pre (.pin path owner) v)
    (h : ∀ x w, C.post (.pin path owner) v x w → Q x w) : wp C (pin path owner) Q v := ⟨hpre, h⟩

theorem wp_unpin {path owner : String} (hpre : C.pre (.unpin path owner) v)
    (h : ∀ x w, C.post (.unpin path owner) v x w → Q x w) : wp C (unpin path owner) Q v :=
  ⟨hpre, h⟩

theorem wp_getPod {Q : Read (PodObject ρ) → V → Prop} (hpre : C.pre (.getPod key) v)
    (h : ∀ x w, C.post (.getPod key) v x w → Q x w) :
    wp C (getPod key) Q v := ⟨hpre, h⟩

theorem wp_render {pr : PodRestore ρ} {Q : Except RenderError (Pod ρ) → V → Prop}
    (hpre : C.pre (.render pr) v) (h : ∀ x w, C.post (.render pr) v x w → Q x w) :
    wp C (render pr) Q v := ⟨hpre, h⟩

theorem wp_createPod {pod : PodObject ρ} {Q : CreateReply → V → Prop}
    (hpre : C.pre (.createPod key pod) v) (h : ∀ x w, C.post (.createPod key pod) v x w → Q x w) :
    wp C (createPod key pod) Q v := ⟨hpre, h⟩

theorem wp_now {Q : ℤ → V → Prop} (hpre : C.pre .now v) (h : ∀ x w, C.post .now v x w → Q x w) :
    wp C now Q v := ⟨hpre, h⟩

theorem wp_updateStatus {resourceVersion : ℕ} {st : PodRestoreStatus}
    (hpre : C.pre (.updateStatus key resourceVersion st) v)
    (h : ∀ x w, C.post (.updateStatus key resourceVersion st) v x w → Q x w) :
    wp C (updateStatus key resourceVersion st) Q v := ⟨hpre, h⟩

end Rules

/-! ### Conditions -/

/-- `ConditionReady`. -/
def conditionReady : String := "Ready"

/-- `ConditionCheckpointsPinned`. -/
def conditionCheckpointsPinned : String := "CheckpointsPinned"

/-- A condition as the controller sets it. -/
def condition (type : String) (generation : ℤ) (status : ConditionStatus)
    (reason message : String) (time : ℤ) : Condition where
  type := type
  status := status
  reason := reason
  message := message
  lastTransitionTime := time
  observedGeneration := generation

/-- `setReady` and `setPinned` differ in the condition's type. -/
def PodRestoreStatus.set (st : PodRestoreStatus) (c : Condition) : PodRestoreStatus :=
  { st with conditions := setStatusCondition st.conditions c }

/-- How a reconcile ends; times are seconds. -/
inductive Result where
  | done
  | requeueAfter (seconds : ℕ)
  | error
  deriving DecidableEq

/-! ### The program -/

section Program
variable (r : PodRestoreReconciler) (isPrint : Char → Bool) (jsonErr : String)

/-- `validateSpec` where `range` visits the template's annotations in the given order. -/
def validateSpecIn (order : List String) (pr : PodRestore ρ) : Except SpecError Unit :=
  match order.find? (Strings.hasPrefix · restoreCheckpointPathAnnotationPrefix) with
  | some key => .error (.reservedKey key)
  | none => validateCheckpoints r pr.ns (pr.template.spec.containers.map Container.name)
      pr.checkpoints

theorem validateSpecIn_keys (pr : PodRestore ρ) :
    validateSpecIn r (pr.template.annotations.getD ∅).keys pr = validateSpec r pr := rfl

/-- `saveStatus`: nothing is written where the status is what was read. -/
def saveStatus (key : ObjectKey) (o : PodRestoreObject ρ) (st : PodRestoreStatus)
    (result : Result) : Prog (sig ρ) Result :=
  if o.status = { st with observedGeneration := o.generation } then pure result
  else do
    match ← updateStatus key o.resourceVersion { st with observedGeneration := o.generation } with
    | true => return result
    | false => return .error

/-- Set the Ready condition and save the status: what every exit does. -/
def report (key : ObjectKey) (o : PodRestoreObject ρ) (st : PodRestoreStatus)
    (status : ConditionStatus) (reason message : String) (result : Result) :
    Prog (sig ρ) Result := do
  let t ← now
  saveStatus key o (st.set (condition conditionReady o.generation status reason message t)) result

/-- How the Pod's phase is reported. -/
def podState (pod : PodObject ρ) : ConditionStatus × String × String × Result :=
  match pod.phase with
  | .running | .succeeded => (.true, "Restored", "Restored Pod is running", .done)
  | .failed => (.false, "PodFailed",
      if pod.reason = "" then "the restore Pod entered the Failed phase" else pod.reason, .done)
  | _ => (.false, "Restoring", "Restore Pod is not yet running", .requeueAfter 3)

/-- What is said of a Pod that belongs to somebody else. -/
def conflictMessage (pod : PodObject ρ) : String :=
  "a Pod named " ++ Strings.quote isPrint pod.pod.name
    ++ " already exists and is not owned by this PodRestore"

/-- The end of a reconcile that has a Pod: adopt it if it is ours, and report its state. -/
def adopt (key : ObjectKey) (o : PodRestoreObject ρ) (st : PodRestoreStatus)
    (pod : PodObject ρ) : Prog (sig ρ) Result :=
  if pod.controllerUID = some o.uid then
    report key o { st with podName := pod.pod.name } (podState pod).1 (podState pod).2.1
      (podState pod).2.2.1 (podState pod).2.2.2
  else report key o st .false "PodConflict" (conflictMessage isPrint pod) .done

/-- The Pod that is sent to the API server. -/
def newPod (o : PodRestoreObject ρ) (pod : Pod ρ) : PodObject ρ where
  pod := pod
  controllerUID := some o.uid
  phase := .unset
  reason := ""

/-- Create the rendered Pod; another writer may have been faster. -/
def createRendered (key : ObjectKey) (o : PodRestoreObject ρ) (st : PodRestoreStatus)
    (pod : Pod ρ) : Prog (sig ρ) Result := do
  match ← createPod key (newPod o pod) with
  | .created => adopt isPrint key o st (newPod o pod)
  | .failed => return .error
  | .alreadyExists =>
    match ← getPod key with
    | .found pod => adopt isPrint key o st pod
    | .notFound => return .error
    | .failed => return .error

/-- Render the Pod and create it. -/
def renderAndCreate (key : ObjectKey) (o : PodRestoreObject ρ) (st : PodRestoreStatus) :
    Prog (sig ρ) Result := do
  match ← render (o.podRestore key) with
  | .error e =>
    report key o st .false "RenderFailed" (e.message isPrint jsonErr) (.requeueAfter 30)
  | .ok pod => createRendered isPrint key o st pod

/-- Ensure the restore Pod exists.  One that was recorded and is gone is not created again. -/
def ensurePod (key : ObjectKey) (o : PodRestoreObject ρ) (st : PodRestoreStatus) :
    Prog (sig ρ) Result := do
  match ← getPod key with
  | .failed => return .error
  | .found pod => adopt isPrint key o st pod
  | .notFound =>
    match decide (st.podName = "") with
    | false => report key o st .false "PodMissing" "restore Pod disappeared" .done
    | true => renderAndCreate isPrint jsonErr key o st

/-- Pin every checkpoint: whether all pins were written. -/
def pinAll (owner : String) (checkpoints : List ContainerCheckpoint) : Prog (sig ρ) Bool :=
  checkpoints.foldlM (fun all cp => do
    let pinned ← pin cp.path owner
    return all && pinned) true

/-- What `setPinned` says. -/
def pinnedCondition (o : PodRestoreObject ρ) (pinnedAll : Bool) (time : ℤ) : Condition :=
  match pinnedAll with
  | true => condition conditionCheckpointsPinned o.generation .true "Pinned"
      "Source checkpoints pinned against retention GC" time
  | false => condition conditionCheckpointsPinned o.generation .false "PinNotEnforced"
      ("Checkpoint archive is not reachable from the operator; pinning against retention GC is "
        ++ "not enforced. Ensure the checkpoint is retained on " ++ o.targetNode
        ++ " for the duration of the restore.") time

/-- What is said of a node that does not exist. -/
def nodeMessage (o : PodRestoreObject ρ) : String :=
  "target node " ++ Strings.quote isPrint o.targetNode ++ " not found"

/-- The part of a reconcile behind the checks: pin, then ensure the Pod. -/
def pinAndRestore (key : ObjectKey) (o : PodRestoreObject ρ) : Prog (sig ρ) Result := do
  let pinnedAll ← pinAll (podRestoreOwnerKey key) o.checkpoints
  let t ← now
  ensurePod isPrint jsonErr key o (o.status.set (pinnedCondition o pinnedAll t))

/-- A reconcile of an object that has the finalizer and is not being deleted. -/
def reconcileLive (key : ObjectKey) (o : PodRestoreObject ρ) : Prog (sig ρ) Result := do
  let order ← rangeKeys (o.template.annotations.getD ∅)
  match validateSpecIn r order (o.podRestore key) with
  | .error e => report key o o.status .false "InvalidSpec" (e.message isPrint) .done
  | .ok () =>
    match ← getNode o.targetNode with
    | .failed => return .error
    | .notFound =>
      report key o o.status .false "NodeNotFound" (nodeMessage isPrint o) (.requeueAfter 30)
    | .found () => pinAndRestore isPrint jsonErr key o

/-- Change the finalizers. -/
def changeFinalizers (key : ObjectKey) (finalizers : List String) : Prog (sig ρ) Result := do
  match ← patchFinalizers key finalizers with
  | true => return .done
  | false => return .error

/-- A reconcile of an object that is being deleted: unpin, then drop the finalizer. -/
def reconcileDelete (key : ObjectKey) (o : PodRestoreObject ρ) : Prog (sig ρ) Result := do
  o.checkpoints.forM (fun cp => do
    let _ ← unpin cp.path (podRestoreOwnerKey key)
    return ⟨⟩)
  changeFinalizers key (o.finalizers.filter (· ≠ podRestoreFinalizer))

/-- A reconcile once the object has been read. -/
def reconcileFound (key : ObjectKey) (o : PodRestoreObject ρ) : Prog (sig ρ) Result :=
  match o.deleting, decide o.Held with
  | true, true => reconcileDelete key o
  | true, false => pure .done
  | false, false => changeFinalizers key (o.finalizers ++ [podRestoreFinalizer])
  | false, true => reconcileLive r isPrint jsonErr key o

/-- `Reconcile`. -/
def reconcile (key : ObjectKey) : Prog (sig ρ) Result := do
  match ← get key with
  | .notFound => return .done
  | .failed => return .error
  | .found o => reconcileFound r isPrint jsonErr key o

/-- Somebody else acts. -/
def act (a : Action ρ) : Prog (sig ρ) Result := do
  Prog.perform (S := sig ρ) (.other a)
  return .done

/-! ### What a reconcile issues -/

/-- The calls of a reconcile for an object that is not being deleted. -/
def LiveOp (key : ObjectKey) : RestoreOp ρ → Prop
  | .rangeKeys _ | .getNode _ | .render _ | .now => True
  | .pin _ owner => owner = podRestoreOwnerKey key
  | .getPod k | .createPod k _ | .updateStatus k _ _ => k = key
  | _ => False

/-- The calls of a reconcile. -/
def OwnOp (key : ObjectKey) : RestoreOp ρ → Prop
  | .get k | .patchFinalizers k _ => k = key
  | .unpin _ owner => owner = podRestoreOwnerKey key
  | op => LiveOp key op

variable {key : ObjectKey} {o : PodRestoreObject ρ}

theorem report_issues (st : PodRestoreStatus) (status : ConditionStatus)
    (reason message : String) (result : Result) :
    Issues (S := sig ρ) (LiveOp key) (report key o st status reason message result) := by
  refine Issues.bind (Issues.perform trivial) (fun t => ?_)
  unfold saveStatus
  split_ifs
  · exact Issues.pure _
  · refine Issues.bind (Issues.perform rfl) (fun (x : Bool) => ?_)
    cases x <;> exact Issues.pure _

theorem adopt_issues (st : PodRestoreStatus) (pod : PodObject ρ) :
    Issues (S := sig ρ) (LiveOp key) (adopt isPrint key o st pod) := by
  unfold adopt
  split_ifs <;> exact report_issues ..

theorem renderAndCreate_issues (st : PodRestoreStatus) :
    Issues (S := sig ρ) (LiveOp key) (renderAndCreate isPrint jsonErr key o st) := by
  refine Issues.bind (Issues.perform trivial) (fun (x : Except RenderError (Pod ρ)) => ?_)
  cases x with
  | error e => exact report_issues ..
  | ok pod =>
    refine Issues.bind (Issues.perform rfl) (fun (x : CreateReply) => ?_)
    cases x with
    | created => exact adopt_issues ..
    | failed => exact Issues.pure _
    | alreadyExists =>
      refine Issues.bind (Issues.perform rfl) (fun (x : Read (PodObject ρ)) => ?_)
      cases x with
      | found pod => exact adopt_issues ..
      | notFound => exact Issues.pure _
      | failed => exact Issues.pure _

theorem ensurePod_issues (st : PodRestoreStatus) :
    Issues (S := sig ρ) (LiveOp key) (ensurePod isPrint jsonErr key o st) := by
  refine Issues.bind (Issues.perform rfl) (fun (x : Read (PodObject ρ)) => ?_)
  cases x with
  | found pod => exact adopt_issues ..
  | failed => exact Issues.pure _
  | notFound =>
    dsimp only
    split
    · exact report_issues ..
    · exact renderAndCreate_issues ..

theorem reconcileLive_issues :
    Issues (S := sig ρ) (LiveOp key) (reconcileLive r isPrint jsonErr key o) := by
  refine Issues.bind (Issues.perform trivial) (fun order => ?_)
  split
  · exact report_issues ..
  · refine Issues.bind (Issues.perform trivial) (fun (x : Read Unit) => ?_)
    cases x with
    | failed => exact Issues.pure _
    | notFound => exact report_issues ..
    | found u =>
      refine Issues.bind (Issues.foldlM (fun all cp => ?_) true) (fun all => ?_)
      · exact Issues.bind (Issues.perform rfl) (fun _ => Issues.pure _)
      · exact Issues.bind (Issues.perform trivial) (fun t => ensurePod_issues ..)

theorem changeFinalizers_issues (finalizers : List String) :
    Issues (S := sig ρ) (OwnOp key) (changeFinalizers key finalizers) := by
  refine Issues.bind (Issues.perform rfl) (fun (x : Bool) => ?_)
  cases x <;> exact Issues.pure _

/-- A reconcile issues its own calls only. -/
theorem reconcile_issues :
    Issues (S := sig ρ) (OwnOp key) (reconcile r isPrint jsonErr key) := by
  refine Issues.bind (Issues.perform rfl) (fun (x : Read (PodRestoreObject ρ)) => ?_)
  cases x with
  | notFound => exact Issues.pure _
  | failed => exact Issues.pure _
  | found o =>
    dsimp only
    unfold reconcileFound
    split
    · refine Issues.bind (Issues.forM (fun cp => ?_)) (fun _ => changeFinalizers_issues _)
      exact Issues.bind (Issues.perform rfl) (fun _ => Issues.pure _)
    · exact Issues.pure _
    · exact changeFinalizers_issues _
    · refine (reconcileLive_issues r isPrint jsonErr).mono (fun op hop => ?_)
      cases op with
      | get k => exact hop.elim
      | patchFinalizers k finalizers => exact hop.elim
      | unpin path owner => exact hop.elim
      | _ => exact hop

end Program

/-! ### The cluster -/

/-- The machine the operator runs on: where temporary directories are made and how they are
    called, a different name at every time, and the decoder of `config.dump`. -/
structure Machine where
  tempRoot : List (List Char)
  tempName : ℕ → List Char
  rootfsImageName : List UInt8 → Except String String
  root_normal : ∀ c ∈ tempRoot, Filepath.Normal c
  name_normal : ∀ k, Filepath.Normal (tempName k)
  name_inj : Function.Injective tempName

/-- The directory `os.MkdirTemp` makes at its `k`th call. -/
def Machine.tempDir (m : Machine) (k : ℕ) : String :=
  String.ofList (Filepath.render true (m.tempRoot ++ [m.tempName k]))

/-- The host of a reading: the archives are those of the file system, the calls on the private
    directory succeed, and what `ReadContainerCheckpointConfigDump` says names the file. -/
def Machine.host (m : Machine) (fs : FS) (k : ℕ) : Host where
  openArchive := fs.openArchive
  mkdirTemp := .ok (m.tempDir k)
  mkdirAll _ := none
  create _ := none
  write _ := none
  close _ := none
  missing path := "open " ++ path ++ ": no such file or directory"
  specAnnotations _ := .ok ∅
  rootfsImageName data := match m.rootfsImageName data with
    | .ok image => .ok image
    | .error e => .error ("failed to unmarshal " ++ Filepath.join (m.tempDir k) configDumpFile
        ++ ": " ++ e)

/-- The shared state.  `created` counts the Pods the controller has created for an object, by the
    object's UID; `released` has the archives of an object whose finalizer the controller has
    removed, until an object of that name is created again. -/
structure Cluster (ρ : Type) where
  objects : ObjectKey → Option (PodRestoreObject ρ)
  pods : ObjectKey → Option (PodObject ρ)
  nodes : List String
  fs : FS
  revision : ℕ
  nextUid : ℕ
  temps : ℕ
  created : ℕ → ℕ
  released : ObjectKey → Option (List String)

namespace Cluster
variable (s : Cluster ρ)

/-- Store an object in a new version.  One that is being deleted is kept for its finalizers. -/
def store (key : ObjectKey) (o : PodRestoreObject ρ) : Cluster ρ :=
  { s with
    objects := Function.update s.objects key
      (if o.deleting = true ∧ o.finalizers = [] then none
        else some { o with resourceVersion := s.revision + 1 })
    revision := s.revision + 1 }

/-- The archives are released when the controller's finalizer goes. -/
def patch (key : ObjectKey) (o : PodRestoreObject ρ) (finalizers : List String) : Cluster ρ :=
  { s.store key { o with finalizers } with
    released :=
      if o.Held ∧ podRestoreFinalizer ∉ finalizers then
        Function.update s.released key (some o.paths)
      else s.released }

/-- A Pod of the controller comes to exist.  The API server sets its phase. -/
def putPod (key : ObjectKey) (pod : PodObject ρ) : Cluster ρ :=
  { s with
    pods := Function.update s.pods key (some { pod with phase := .pending })
    created := match pod.controllerUID with
      | some uid => Function.update s.created uid (s.created uid + 1)
      | none => s.created }

/-- A new object.  Its UID was never used before. -/
def putNew (key : ObjectKey) (finalizers : List String) (targetNode : String)
    (checkpoints : List ContainerCheckpoint) (template : PodTemplateSpec ρ) : Cluster ρ :=
  { s with
    objects := Function.update s.objects key (some {
      uid := s.nextUid
      resourceVersion := s.revision + 1
      generation := 1
      deleting := false
      finalizers, targetNode, checkpoints, template
      status := ⟨[], "", 0⟩ })
    revision := s.revision + 1
    nextUid := s.nextUid + 1
    released := Function.update s.released key none }

/-- No finalizer may be added to an object that is being deleted. -/
def Admits (o : PodRestoreObject ρ) (finalizers : List String) : Prop :=
  o.deleting = true → finalizers ⊆ o.finalizers

instance (o : PodRestoreObject ρ) (finalizers : List String) : Decidable (Admits o finalizers) :=
  inferInstanceAs (Decidable (o.deleting = true → finalizers ⊆ o.finalizers))

/-- A read. -/
def read {α : Type} : Option α → Read α
  | some x => .found x
  | none => .notFound

theorem read_found {α : Type} {x : Option α} {y : α} (h : .found y = read x) : x = some y := by
  cases x with
  | none => exact absurd h (by simp [read])
  | some z => exact congrArg some (Read.found.inj h).symm

theorem read_notFound {α : Type} {x : Option α} (h : .notFound = read x) : x = none := by
  cases x with
  | none => rfl
  | some z => exact absurd h (by simp [read])

/-- `r.Patch`. -/
def patchAnswer (key : ObjectKey) (finalizers : List String) : Bool × Cluster ρ :=
  match s.objects key with
  | none => (false, s)
  | some o => if Admits o finalizers then (true, s.patch key o finalizers) else (false, s)

/-- `r.Create`. -/
def createAnswer (key : ObjectKey) (pod : PodObject ρ) : CreateReply × Cluster ρ :=
  match s.pods key with
  | some _ => (.alreadyExists, s)
  | none => (.created, s.putPod key pod)

/-- `r.Status().Update`: an object that was changed since it was read is not updated. -/
def updateAnswer (key : ObjectKey) (resourceVersion : ℕ) (st : PodRestoreStatus) :
    Bool × Cluster ρ :=
  match s.objects key with
  | none => (false, s)
  | some o =>
    if o.resourceVersion = resourceVersion then (true, s.store key { o with status := st.stored })
    else (false, s)

end Cluster

/-- The archive's marker is the controller's and lists the owner. -/
def Lists (fs : FS) (path owner : String) : Prop :=
  ∃ content marker, Pinning.keepContent fs path = some content ∧
    Pinning.parsePodRestorePinMarker content = some marker ∧ owner ∈ marker.owners

/-- What the actions of others do.  They leave the controller's finalizer and its entries in the
    markers to the controller. -/
def Action.act : Action ρ → Cluster ρ → Cluster ρ → Prop
  | .create key finalizers targetNode checkpoints template, s, s' =>
      s.objects key = none ∧ s' = s.putNew key finalizers targetNode checkpoints template
  | .delete key, s, s' => ∃ o, s.objects key = some o ∧ s' = s.store key { o with deleting := true }
  | .editFinalizers key finalizers, s, s' => ∃ o, s.objects key = some o ∧
      Cluster.Admits o finalizers ∧ (podRestoreFinalizer ∈ finalizers ↔ o.Held) ∧
      s' = s.store key { o with finalizers }
  | .createPod key pod, s, s' => s.pods key = none ∧ pod.pod.name = key.name ∧
      s' = { s with pods := Function.update s.pods key (some pod) }
  | .setPodStatus key phase reason, s, s' => ∃ pod, s.pods key = some pod ∧
      s' = { s with pods := Function.update s.pods key (some { pod with phase, reason }) }
  | .deletePod key, s, s' => s' = { s with pods := Function.update s.pods key none }
  | .addNode name, s, s' => s' = { s with nodes := name :: s.nodes }
  | .removeNode name, s, s' => s' = { s with nodes := s.nodes.filter (· ≠ name) }
  | .files fs, s, s' => (∀ path owner, Lists fs path owner → Lists s.fs path owner) ∧
      s' = { s with fs }

/-- A call of the API: it has its answer and effect, or it fails, before or after the effect. -/
def apiCall {α : Type} (faulty : Prop) (good : α × Cluster ρ) (bad : α) (s : Cluster ρ) (x : α)
    (s' : Cluster ρ) : Prop :=
  x = good.1 ∧ s' = good.2 ∨ faulty ∧ x = bad ∧ (s' = s ∨ s' = good.2)

/-- A call of the API gives its answer or fails, and has its effect or none. -/
theorem apiCall_cases {α : Type} {faulty : Prop} {good : α × Cluster ρ} {bad x : α}
    {s s' : Cluster ρ} (h : apiCall faulty good bad s x s') :
    (x = good.1 ∨ x = bad) ∧ (s' = s ∨ s' = good.2) := by
  rcases h with ⟨rfl, rfl⟩ | ⟨-, rfl, hs⟩
  · exact ⟨.inl rfl, .inr rfl⟩
  · exact ⟨.inr rfl, hs⟩

variable {p : Prog (sig ρ) Result}

section World
variable (r : PodRestoreReconciler) (m : Machine)

/-- The answers and effects of the operations. -/
def Cluster.act (faulty : Prop) :
    (op : (sig ρ).Op) → Cluster ρ → (sig ρ).Reply op → Cluster ρ → Prop
  | .get key, s, x, s' => apiCall faulty (read (s.objects key), s) .failed s x s'
  | .patchFinalizers key finalizers, s, x, s' =>
      apiCall faulty (s.patchAnswer key finalizers) false s x s'
  | .rangeKeys map, s, x, s' => List.Perm x map.keys ∧ s' = s
  | .getNode name, s, x, s' =>
      apiCall faulty (if name ∈ s.nodes then .found () else .notFound, s) .failed s x s'
  | .pin path owner, s, x, s' => ∃ tr fs,
      Runs (FsOp.act (fun _ => faulty)) (Pinning.pinCheckpoint path owner) s.fs tr x fs ∧
      s' = { s with fs }
  | .unpin path owner, s, x, s' => ∃ tr fs, s' = { s with fs } ∧
      (x = true ∧
          Runs (FsOp.act FsOp.noFault) (Pinning.unpinCheckpoint path owner) s.fs tr () fs ∨
        faulty ∧ x = false ∧
          Runs (FsOp.act FsOp.anyFault) (Pinning.unpinCheckpoint path owner) s.fs tr () fs)
  | .getPod key, s, x, s' => apiCall faulty (read (s.pods key), s) .failed s x s'
  | .render pr, s, x, s' => s' = { s with temps := s.temps + 1 } ∧
      (x = renderPod r (m.host s.fs s.temps) pr ∨ faulty ∧ ∃ e, x = .error e)
  | .createPod key pod, s, x, s' => apiCall faulty (s.createAnswer key pod) .failed s x s'
  | .now, s, _, s' => s' = s
  | .updateStatus key resourceVersion st, s, x, s' =>
      apiCall faulty (s.updateAnswer key resourceVersion st) false s x s'
  | .other a, s, _, s' => a.act s s'

/-- The answers where nothing fails: `order` is how `range` visits a map, and `t` the time. -/
def Cluster.answer (order : StringMap → List String) (t : ℤ) :
    (op : (sig ρ).Op) → Cluster ρ → (sig ρ).Reply op × Cluster ρ
  | .get key, s => (read (s.objects key), s)
  | .patchFinalizers key finalizers, s => s.patchAnswer key finalizers
  | .rangeKeys map, s => (order map, s)
  | .getNode name, s => (if name ∈ s.nodes then .found () else .notFound, s)
  | .pin path owner, s =>
      ((exec (FsOp.answer t) (Pinning.pinCheckpoint path owner) s.fs).1,
        { s with fs := (exec (FsOp.answer t) (Pinning.pinCheckpoint path owner) s.fs).2 })
  | .unpin path owner, s => (true,
      { s with fs := (exec (FsOp.answer t) (Pinning.unpinCheckpoint path owner) s.fs).2 })
  | .getPod key, s => (read (s.pods key), s)
  | .render pr, s => (renderPod r (m.host s.fs s.temps) pr, { s with temps := s.temps + 1 })
  | .createPod key pod, s => s.createAnswer key pod
  | .now, s => (t, s)
  | .updateStatus key resourceVersion st, s => s.updateAnswer key resourceVersion st
  | .other _, s => ((), s)

/-- They are possible answers to the calls of a reconcile. -/
theorem Cluster.answer_act {order : StringMap → List String}
    (horder : ∀ map, (order map).Perm map.keys) (t : ℤ) (faulty : Prop) (op : (sig ρ).Op)
    (s : Cluster ρ) (hop : OwnOp key op) :
    Cluster.act r m faulty op s (Cluster.answer r m order t op s).1
      (Cluster.answer r m order t op s).2 := by
  cases op with
  | get k => exact .inl ⟨rfl, rfl⟩
  | patchFinalizers k finalizers => exact .inl ⟨rfl, rfl⟩
  | rangeKeys map => exact ⟨horder map, rfl⟩
  | getNode name => exact .inl ⟨rfl, rfl⟩
  | pin path owner =>
    exact ⟨_, _, Runs.of_exec (fun op s => FsOp.answer_act (fun _ => faulty) t op s) _ _, rfl⟩
  | unpin path owner =>
    exact ⟨_, _, rfl,
      .inl ⟨rfl, Runs.of_exec (fun op s => FsOp.answer_act FsOp.noFault t op s) _ _⟩⟩
  | getPod k => exact .inl ⟨rfl, rfl⟩
  | render pr => exact ⟨rfl, .inl rfl⟩
  | createPod k pod => exact .inl ⟨rfl, rfl⟩
  | now => rfl
  | updateStatus k resourceVersion st => exact .inl ⟨rfl, rfl⟩
  | other a => exact hop.elim

variable (isPrint : Char → Bool) (jsonErr : String)

/-- Reconciles of any keys, one at a time for each key, and the actions of others. -/
def world : World (sig ρ) Result (Cluster ρ) where
  act := Cluster.act r m True
  env _ _ := False
  start b p :=
    (∃ key, p = reconcile r isPrint jsonErr key ∧
      ∀ t ∈ b.threads, t.first = some (.get key) → t.Done) ∨
    ∃ a, p = act a

variable {r m isPrint jsonErr}

/-- Somebody else issues one operation. -/
theorem unfolds_act {a : Action ρ} {tr : List (Event (sig ρ))} (h : Unfolds (act a) tr p) :
    p = act a ∨ p = .pure .done := by
  induction h with
  | nil => exact .inl rfl
  | snoc _ x ih =>
    rcases ih with heq | heq
    · obtain ⟨rfl, heq⟩ := Prog.call.inj heq
      obtain rfl := eq_of_heq heq
      exact .inr rfl
    · exact absurd heq (by simp)

/-- What is started is the only reconcile of its key, or an action of somebody else. -/
theorem world_start {b : Pool (sig ρ) Result (Cluster ρ)}
    (h : (world r m isPrint jsonErr).start b p) :
    (∃ key, p = reconcile r isPrint jsonErr key ∧
      ∀ t ∈ b.threads, t.first = some (.get key) → t.Done) ∨
    ∀ key, (⟨[], p⟩ : Thread (sig ρ) Result).first ≠ some (.get key) := by
  rcases h with h | ⟨a, rfl⟩
  · exact .inl h
  · refine .inr (fun key h => ?_)
    have hfirst : some (RestoreOp.other a) = some (RestoreOp.get key) := h
    exact absurd (Option.some.inj hfirst) (by simp)

/-- What is not done by a reconcile is an action of somebody else. -/
theorem world_other {b : Pool (sig ρ) Result (Cluster ρ)} {tr : List (Event (sig ρ))}
    {op : (sig ρ).Op} {k : (sig ρ).Reply op → Prog (sig ρ) Result}
    (h : (world r m isPrint jsonErr).start b p) (hu : Unfolds p tr (.call op k))
    (hother : ∀ key, (⟨tr, .call op k⟩ : Thread (sig ρ) Result).first ≠ some (.get key)) :
    ∃ a, op = .other a := by
  rcases h with ⟨key, rfl, -⟩ | ⟨a, rfl⟩
  · exact absurd hu.first (hother key)
  · rcases unfolds_act hu with heq | heq
    · obtain ⟨rfl, -⟩ := Prog.call.inj heq
      exact ⟨a, rfl⟩
    · exact absurd heq (by simp)

variable {ok : Pool (sig ρ) Result (Cluster ρ) → Label (sig ρ) Result → Prop}
  {a : Pool (sig ρ) Result (Cluster ρ)} {s : Cluster ρ}

/-- A reconcile by itself, against answers that are possible ones. -/
theorem rests_exec (h : Rests (world r m isPrint jsonErr) ok a s)
    {answer : (op : (sig ρ).Op) → Cluster ρ → (sig ρ).Reply op × Cluster ρ}
    (hspawn : ∀ b, ok b (.spawn (reconcile r isPrint jsonErr key)))
    (hok : ∀ b i op s, OwnOp key op → ok b (.act i ⟨op, (answer op s).1⟩))
    (hact : ∀ op s, OwnOp key op → Cluster.act r m True op s (answer op s).1 (answer op s).2) :
    Rests (world r m isPrint jsonErr) ok a
      (exec answer (reconcile r isPrint jsonErr key) s).2 := by
  have hissues : Issues (S := sig ρ) (OwnOp key) (reconcile r isPrint jsonErr key) :=
    reconcile_issues r isPrint jsonErr
  have hrun := Runs.of_exec_issues hact hissues s
  refine h.run hrun (fun ts hts => .inl ⟨key, rfl, fun t ht _ => hts t ht⟩) hspawn
    (fun b i e he => ?_)
  have hown : OwnOp key e.op → ok b (.act i e) :=
    forall_mem_trace (P := fun e => OwnOp key e.op → ok b (.act i e))
      (fun op s => hok b i op s) _ s e he
  exact hown (Issues.of_runs hissues hrun e he)

/-- An action of somebody else by itself. -/
theorem rests_act (h : Rests (world r m isPrint jsonErr) ok a s) {x : Action ρ} {s' : Cluster ρ}
    (hact : x.act s s') (hspawn : ∀ b, ok b (.spawn (act x)))
    (hok : ∀ ts i, ok ⟨s, ts⟩ (.act i ⟨.other x, ()⟩)) :
    Rests (world r m isPrint jsonErr) ok a s' := by
  obtain ⟨ts, hts, hr⟩ := h
  have hlast := hr.step (hspawn _) (.spawn (.inr ⟨x, rfl⟩))
  have hmoved := hlast.act ts.length ⟨.other x, ()⟩ (List.getElem?_concat_length ..) rfl
    (hok _ _) hact
  refine ⟨_, fun t ht => ?_, hmoved⟩
  rw [List.set_append_right _ _ le_rfl, Nat.sub_self, List.set_cons_zero] at ht
  rcases List.mem_append.mp ht with ht | ht
  · exact hts t ht
  · rw [List.mem_singleton.mp ht]
    exact ⟨.done, rfl⟩

end World

/-- A cluster without a `PodRestore`.  A Pod has the name it is stored under. -/
structure Cluster.Initial (s : Cluster ρ) : Prop where
  objects : ∀ key, s.objects key = none
  pods : ∀ key pod, s.pods key = some pod → pod.pod.name = key.name
  created : ∀ uid, s.created uid = 0
  released : ∀ key, s.released key = none

end CheckpointRestore.Restore
