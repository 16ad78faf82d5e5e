import CheckpointRestore.Lib.Prog
import CheckpointRestore.Forensic.Chain

namespace CheckpointRestore.Forensic

open Go Interaction

/-!
# `ForensicSnapshotChainReconciler.Reconcile`

The reconciler as a program over what it asks of the outside world: the API server, the
clock, the kubelet's checkpoint API and the helper pod that computes checksums.  Nothing is
said here about the answers; the sequential world and the one with a lagging cache are in
their own modules.

* `reconcile` — one call of `Reconcile`;
* `updateChainStatus` — re-read, mutate, write, again on a conflict;
* `captureRound` — the loop over pods and containers;
* `executePostSnapshotAction` — the destructive action.
-/

/-! ### The outside world -/

/-- A listed pod: its name, node, containers, and whether its phase is `Running`. -/
structure PodInfo where
  name : String
  nodeName : String
  running : Bool
  containers : List String
  deriving DecidableEq

/-- The lines of a helper pod's log and the error the scanner stopped with. -/
structure Logs where
  lines : List String
  err : Option String

/-- What the reconciler asks for. -/
inductive Op where
  | get
  | statusUpdate (chain : Chain)
  | now
  | listPods (ns selector : String)
  | createCheckpoint (ns pod container node : String)
  | helperLogs (ns node path : String)
  | deletePod (pod : PodInfo)

/-- The answers to `Get`. -/
inductive GetReply where
  | found (chain : Chain)
  | notFound
  | failed (msg : String)

/-- The answers to `Status().Update`. -/
inductive UpdateReply where
  | ok
  | conflict (msg : String)
  | failed (msg : String)

/-- The answers to `Delete`. -/
inductive DeleteReply where
  | ok
  | notFound
  | failed (msg : String)

/-- The effect signature of the reconciler. -/
def sig : Signature where
  Op := Op
  Reply
    | .get => GetReply
    | .statusUpdate _ => UpdateReply
    | .now => ℤ
    | .listPods _ _ => Except String (List PodInfo)
    | .createCheckpoint _ _ _ _ => Except String String
    | .helperLogs _ _ _ => Except String Logs
    | .deletePod _ => DeleteReply

/-- `r.Get`. -/
def get : Prog sig GetReply := .perform (S := sig) Op.get

/-- `r.Status().Update`. -/
def statusUpdate (chain : Chain) : Prog sig UpdateReply :=
  .perform (S := sig) (Op.statusUpdate chain)

/-- `metav1.Now`. -/
def now : Prog sig ℤ := .perform (S := sig) Op.now

/-- The `List` call of `getMatchingPods`. -/
def listPods (ns selector : String) : Prog sig (Except String (List PodInfo)) :=
  .perform (S := sig) (Op.listPods ns selector)

/-- `creator.createCheckpoint`. -/
def createCheckpoint (ns pod container node : String) : Prog sig (Except String String) :=
  .perform (S := sig) (Op.createCheckpoint ns pod container node)

/-- Run the checksum helper pod and read its log. -/
def helperLogs (ns node path : String) : Prog sig (Except String Logs) :=
  .perform (S := sig) (Op.helperLogs ns node path)

/-- `r.Delete`. -/
def deletePod (pod : PodInfo) : Prog sig DeleteReply := .perform (S := sig) (Op.deletePod pod)

/-! ### Helpers -/

/-- What `Reconcile` returns. -/
inductive Outcome where
  | done
  | requeueAfter (d : ℤ)
  | error (msg : String)
  deriving DecidableEq

/-- 30 seconds. -/
def defaultInterval : ℤ := 30 * second

/-- How many rounds may fail in a row. -/
def maxConsecutiveCheckpointFailures : ℤ := 5

/-- `captureInterval`. -/
def captureInterval (chain : Chain) : ℤ := chain.spec.capture.interval.getD defaultInterval

/-- `getMatchingPods`: only running pods count. -/
def getMatchingPods (ns selector : String) : Prog sig (Except String (List PodInfo)) := do
  match ← listPods ns selector with
  | .error e => return .error e
  | .ok pods => return .ok (pods.filter PodInfo.running)

/-- `filterContainers`. -/
def filterContainers (pod : PodInfo) (containerNames : List String) : List String :=
  if containerNames = [] then pod.containers
  else pod.containers.filter (fun c => containerNames.contains c)

/-- `parseSHA256FromLogs`: the first field of the first line that has two. -/
def parseSHA256FromLogs (logs : Logs) : Except String String :=
  match logs.lines.findSome? (fun line => match Strings.fields line with
      | hash :: _ :: _ => some hash
      | _ => none) with
  | some hash => .ok hash
  | none => match logs.err with
    | some e => .error ("error reading checksum helper pod logs: " ++ e)
    | none => .error "no output from helper pod"

/-- `computeChecksum`. -/
def computeChecksum (ns node path : String) : Prog sig (Except String String) := do
  match ← helperLogs ns node path with
  | .error e => return .error e
  | .ok logs => return parseSHA256FromLogs logs

/-- `updateChainStatus`, with the number of attempts `RetryOnConflict` has left.  The closure
    reads the clock at most twice. -/
def updateChainStatus (mutate : ℤ → ℤ → Status → Status) : ℕ → Prog sig (Option String)
  | 0 => return none
  | attempts + 1 => do
    match ← get with
    | .notFound => return some "not found"
    | .failed e => return some e
    | .found latest =>
      let t₁ ← now
      let t₂ ← now
      match ← statusUpdate { latest with
          status :=
            { mutate t₁ t₂ latest.status with observedGeneration := latest.generation } } with
      | .ok => return none
      | .failed e => return some e
      | .conflict e => if attempts = 0 then return some e else updateChainStatus mutate attempts

/-- `retry.DefaultRetry.Steps`. -/
def defaultRetrySteps : ℕ := 5

/-- The deletions of `executePostSnapshotAction`, up to the first error. -/
def deletePods : List PodInfo → Prog sig (Option String)
  | [] => return none
  | pod :: pods => do
    match ← deletePod pod with
    | .failed e => return some e
    | .ok => deletePods pods
    | .notFound => deletePods pods

/-- `executePostSnapshotAction`. -/
def executePostSnapshotAction (chain : Chain) (pods : List PodInfo) (snapshotCount : ℤ) :
    Prog sig (Option String) :=
  if chain.spec.postSnapshotAction ≠ .deletePod then return none
  else if snapshotCount = 0 then return none
  else deletePods pods

/-! ### The capture round -/

/-- A container to checkpoint. -/
structure Target where
  pod : String
  node : String
  container : String

/-- The selected containers of the matching pods, in the order of the two loops. -/
def targets (chain : Chain) (pods : List PodInfo) : List Target :=
  pods.flatMap (fun pod => (filterContainers pod chain.spec.containerNames).map
    (fun container => { pod := pod.name, node := pod.nodeName, container }))

/-- Only `sha256` turns hashing on. -/
def hashingEnabled (chain : Chain) : Bool := chain.spec.hashAlgorithm == "sha256"

/-- The round at its start: the hash link is seeded from the last persisted record. -/
def Round.start (chain : Chain) : Round where
  captured := 0
  newRecords := []
  integrityFailed := false
  integrityMessage := ""
  previousHash := match chain.status.records.getLast? with
    | none => ""
    | some record => record.sha256Hash

/-- The record of one checkpoint, not hashed yet. -/
def newRecord (chain : Chain) (round : Round) (target : Target) (path : String) (t : ℤ) :
    Record where
  index := wrap32 (chain.status.records.length + round.newRecords.length)
  podName := target.pod
  containerName := target.container
  checkpointPath := path
  snapshotTime := t
  sha256Hash := ""
  previousSHA256Hash := ""

/-- Append a record that is not hashed. -/
def Round.add (round : Round) (record : Record) : Round :=
  { round with captured := round.captured + 1, newRecords := round.newRecords ++ [record] }

/-- Append a record whose checksum could not be computed. -/
def Round.addFailed (round : Round) (record : Record) (hashErr : String) : Round :=
  { round.add record with
    integrityFailed := true
    integrityMessage := "snapshot " ++ toString record.index ++ ": " ++ hashErr }

/-- Append a hashed record: it links to the hash before it and becomes the next link. -/
def Round.addHashed (round : Round) (record : Record) (hash : String) : Round :=
  { round.add { record with previousSHA256Hash := round.previousHash, sha256Hash := hash } with
    previousHash := hash }

/-- The loop body: checkpoint one container and record it. -/
def captureContainer (chain : Chain) (round : Round) (target : Target) :
    Prog sig (Except String Round) := do
  match ← createCheckpoint chain.spec.ns target.pod target.container target.node with
  | .error e => return .error e
  | .ok path =>
    let t ← now
    let record := newRecord chain round target path t
    if hashingEnabled chain then
      match ← computeChecksum chain.spec.ns target.node path with
      | .error e => return .ok (round.addFailed record e)
      | .ok hash => return .ok (round.addHashed record hash)
    else return .ok (round.add record)

/-- The capture round: it is abandoned at the first failed checkpoint. -/
def captureRound (chain : Chain) : List Target → Round → Prog sig (Except String Round)
  | [], round => return .ok round
  | target :: rest, round => do
    match ← captureContainer chain round target with
    | .error e => return .error e
    | .ok round => captureRound chain rest round

/-- Does the failed round end the chain? -/
def givesUp (chain : Chain) : Bool :=
  chain.spec.capture.maxDuration.isNone &&
    decide (wrap32 (chain.status.failureCount + 1) ≥ maxConsecutiveCheckpointFailures)

/-- The reason and message with which a round that did not fail completes the chain. -/
def completion (chain : Chain) (captured : ℕ) : Option (String × String) :=
  let attemptCount := wrap32 (chain.status.attemptCount + 1)
  let snapshotCount :=
    if captured > 0 then wrap32 (chain.status.snapshotCount + 1) else chain.status.snapshotCount
  match chain.spec.capture.maxSnapshots with
  | none => none
  | some limit =>
    if snapshotCount ≥ limit then
      some ("MaxSnapshotsReached",
        "Snapshot chain completed as it reached the maximum number of snapshots")
    else if captured = 0 ∧ chain.spec.capture.maxDuration = none ∧ attemptCount ≥ limit then
      some ("NoMatchingPods",
        "Snapshot chain completed without capturing the requested number of snapshots "
          ++ "because no pods matched the selector")
    else none

/-- Record a failed round. -/
def finishFailed (chain : Chain) (e : String) : Prog sig Outcome := do
  match ← updateChainStatus (Status.roundFailed e (givesUp chain)) defaultRetrySteps with
  | some statusErr => return .error statusErr
  | none => if givesUp chain then return .done else return .error e

/-- Record a round that did not fail, and act on completion. -/
def finishRound (chain : Chain) (pods : List PodInfo) (round : Round) : Prog sig Outcome := do
  let t ← now
  match completion chain round.captured with
  | some (reason, message) =>
    match ← updateChainStatus
        (Status.roundDone t round (hashingEnabled chain) reason message) defaultRetrySteps with
    | some e => return .error e
    | none =>
      let _ ← executePostSnapshotAction chain pods
        (if round.captured > 0 then wrap32 (chain.status.snapshotCount + 1)
          else chain.status.snapshotCount)
      return .done
  | none =>
    match ← updateChainStatus
        (Status.roundContinue t round (hashingEnabled chain)) defaultRetrySteps with
    | some e => return .error e
    | none => return .requeueAfter (captureInterval chain)

/-- A running chain that is due: list the pods and capture a round. -/
def capture (chain : Chain) : Prog sig Outcome := do
  match ← getMatchingPods chain.spec.ns chain.spec.selector with
  | .error e => return .error e
  | .ok pods =>
    match ← captureRound chain (targets chain pods) (Round.start chain) with
    | .error e => finishFailed chain e
    | .ok round => finishRound chain pods round

/-! ### Reconcile -/

/-- The pods the post-snapshot action is about: only `DeletePod` needs the list. -/
def podsToDelete (chain : Chain) : Prog sig (Except String (List PodInfo)) :=
  if chain.spec.postSnapshotAction = .deletePod then
    getMatchingPods chain.spec.ns chain.spec.selector
  else return .ok []

/-- Complete the chain, then act on it. -/
def finishMaxDuration (chain : Chain) (pods : List PodInfo) : Prog sig Outcome := do
  match ← updateChainStatus Status.maxDurationReached defaultRetrySteps with
  | some e => return .error e
  | none =>
    let _ ← executePostSnapshotAction chain pods chain.status.snapshotCount
    return .done

/-- The maximum duration has passed: the pods are listed before the chain is completed. -/
def stopAtMaxDuration (chain : Chain) : Prog sig Outcome := do
  match ← podsToDelete chain with
  | .error e => return .error e
  | .ok pods => finishMaxDuration chain pods

/-- Has the maximum duration passed? -/
def maxDurationElapsed (chain : Chain) : Prog sig Bool :=
  match chain.spec.capture.maxDuration, chain.status.startTime with
  | some maxDuration, some startTime => do
    let t ← now
    return decide (t - startTime > maxDuration)
  | _, _ => return false

/-- How long to wait for the next round, if it is not due. -/
def waitForInterval (chain : Chain) : Prog sig (Option ℤ) :=
  match chain.status.lastSnapshotTime with
  | some last => do
    let t ← now
    if t < last + captureInterval chain then return some (last + captureInterval chain - t)
    else return none
  | none => return none

/-- Capture a round, or come back when it is due. -/
def captureWhenDue (chain : Chain) : Prog sig Outcome := do
  match ← waitForInterval chain with
  | some d => return .requeueAfter d
  | none => capture chain

/-- The error of an unsupported hash algorithm. -/
def unsupportedAlgorithm (chain : Chain) : String :=
  "unsupported hash algorithm: " ++ chain.spec.hashAlgorithm

/-- The `Running` phase. -/
def reconcileRunning (chain : Chain) : Prog sig Outcome := do
  if chain.spec.hashAlgorithm ≠ "" ∧ chain.spec.hashAlgorithm ≠ "sha256" then
    match ← updateChainStatus (Status.failUnsupported (unsupportedAlgorithm chain))
        defaultRetrySteps with
    | some e => return .error e
    | none => return .error (unsupportedAlgorithm chain)
  else if ← maxDurationElapsed chain then stopAtMaxDuration chain
  else captureWhenDue chain

/-- Write a phase change directly, on the version that was read. -/
def writeDirectly (chain : Chain) (st : Status) : Prog sig Outcome := do
  match ← statusUpdate { chain with status := st } with
  | .ok => return .done
  | .conflict e => return .error e
  | .failed e => return .error e

/-- `Reconcile` of a chain that was found: the switch over its phase. -/
def reconcilePhase (chain : Chain) : Prog sig Outcome := do
  match chain.status.phase with
  | .completed => return .done
  | .failed => return .done
  | .empty =>
    let t₁ ← now
    let t₂ ← now
    writeDirectly chain (chain.status.toPending t₁ t₂ chain.generation)
  | .pending =>
    let t₁ ← now
    writeDirectly chain (chain.status.toRunning t₁ chain.generation)
  | .running => reconcileRunning chain
  | .other _ => return .done

/-- `Reconcile`. -/
def reconcile : Prog sig Outcome := do
  match ← get with
  | .notFound => return .done
  | .failed e => return .error e
  | .found chain => reconcilePhase chain

/-! ### Checksums -/

/-- A checksum that was computed is not empty. -/
theorem parseSHA256FromLogs_ne_empty {logs : Logs} {hash : String}
    (h : parseSHA256FromLogs logs = .ok hash) : hash ≠ "" := by
  unfold parseSHA256FromLogs at h
  split at h
  · rename_i hash' hfind
    cases h
    obtain ⟨line, -, hline⟩ := List.exists_of_findSome?_eq_some hfind
    split at hline
    · rename_i hash'' second rest hfields
      cases hline
      exact Strings.ne_empty_of_mem_fields (s := line) (by rw [hfields]; simp)
    · exact absurd hline (by simp)
  · split at h <;> exact absurd h (by simp)

end CheckpointRestore.Forensic
