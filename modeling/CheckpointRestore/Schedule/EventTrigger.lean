import Mathlib.Data.List.Dedup
import CheckpointRestore.Forensic.Reconcile

namespace CheckpointRestore.Schedule

open Interaction
open Forensic (PodInfo ConditionStatus filterContainers)

/-!
# `EventTrigger` — checkpoints on pod disruptions

The trigger that polls for disruption signals of the pods a `CheckpointSchedule` selects, as a
program over what it asks of the API server and the kubelet.  What it remembers, the nodes whose
drain and the pods whose eviction or preemption it has handled, is passed from poll to poll.

* `EventTrigger.run` — one poll;
* `handleNodeDrain`, `checkpointOnce` — the two kinds of signals and their memory;
* `polledPods`, `polledNodes`, `drainCall`, `podCall` — what is read off the trace of a poll.
-/

/-! ### The schedule -/

/-- `ResourcePercentThreshold`. -/
structure ResourcePercentThreshold where
  upper : Option ℤ
  lower : Option ℤ
  deriving DecidableEq

/-- `ResourceThresholdSpec`. -/
structure ResourceThresholdSpec where
  cpuPercent : Option ResourcePercentThreshold
  memoryPercent : Option ResourcePercentThreshold
  pollIntervalSeconds : Option ℤ
  deriving DecidableEq

/-- `TriggersSpec`. -/
structure TriggersSpec where
  interval : Option ℤ
  resourceThreshold : Option ResourceThresholdSpec
  onKubernetesEvents : List String
  onAnnotation : Bool
  deriving DecidableEq

/-- `CheckpointScheduleSpec`; the label selector is kept in its serialised form. -/
structure Spec where
  ns : String
  selector : String
  containerNames : List String
  triggers : TriggersSpec
  deriving DecidableEq

/-! ### The outside world -/

/-- A pod condition. -/
structure PodCondition where
  type : String
  reason : String
  status : ConditionStatus
  deriving DecidableEq

/-- A listed pod: who it is, and what the trigger looks at. -/
structure Pod extends PodInfo where
  uid : String
  ns : String
  deletionTimestamp : Option ℤ
  conditions : List PodCondition
  deriving DecidableEq

/-- The key of a pod in `seenPods`. -/
def Pod.key (pod : Pod) : String := pod.ns ++ "/" ++ pod.name

/-- A listed node. -/
structure Node where
  name : String
  unschedulable : Bool
  deriving DecidableEq

/-- What the trigger asks for.  A checkpoint carries the reason its outcome is logged with, and
    `rangeMap` asks for the order in which a map is ranged over. -/
inductive Op where
  | listPods (ns selector : String)
  | listNodes
  | rangeMap (keys : List String)
  | createCheckpoint (reason ns pod container node : String)

/-- The effect signature of the trigger. -/
def sig : Signature where
  Op := Op
  Reply
    | .listPods _ _ => Except String (List Pod)
    | .listNodes => Except String (List Node)
    | .rangeMap _ => List String
    | .createCheckpoint _ _ _ _ _ => Except String String

/-- The `List` call of `getMatchingPods`. -/
def listPods (ns selector : String) : Prog sig (Except String (List Pod)) :=
  .perform (S := sig) (Op.listPods ns selector)

/-- `et.client.List` of the nodes. -/
def listNodes : Prog sig (Except String (List Node)) := .perform (S := sig) Op.listNodes

/-- The order of a map. -/
def rangeMap (keys : List String) : Prog sig (List String) :=
  .perform (S := sig) (Op.rangeMap keys)

/-- `et.creator.createCheckpoint`. -/
def createCheckpoint (reason ns pod container node : String) : Prog sig (Except String String) :=
  .perform (S := sig) (Op.createCheckpoint reason ns pod container node)

/-- `getMatchingPods`: only running pods count. -/
def getMatchingPods (ns selector : String) : Prog sig (Except String (List Pod)) := do
  match ← listPods ns selector with
  | .error e => return .error e
  | .ok pods => return .ok (pods.filter (fun pod => pod.running))

/-! ### The trigger -/

/-- `EventTrigger`: the schedule it was started with, what it watches and what it has seen. -/
structure EventTrigger where
  spec : Spec
  watchNodeDrain : Bool
  watchPodEviction : Bool
  watchPreemption : Bool
  seenNodes : List String
  seenPods : List String
  deriving DecidableEq

/-- `NewEventTrigger`. -/
def newEventTrigger (spec : Spec) : EventTrigger where
  spec := spec
  watchNodeDrain := spec.triggers.onKubernetesEvents.contains "NodeDrain"
  watchPodEviction := spec.triggers.onKubernetesEvents.contains "PodEviction"
  watchPreemption := spec.triggers.onKubernetesEvents.contains "Preemption"
  seenNodes := []
  seenPods := []

/-- `podIsPreempted`. -/
def podIsPreempted (pod : Pod) : Bool :=
  pod.conditions.any (fun cond =>
    cond.type == "DisruptionTarget" && cond.reason == "PreemptingEvictor" &&
      cond.status == .true)

/-- The nodes that are unschedulable and host a pod, each once. -/
def drainingNow (pods : List Pod) (nodes : List Node) : List String :=
  ((nodes.filter (fun node => node.unschedulable &&
    pods.any (fun pod => pod.nodeName != "" && pod.nodeName == node.name))).map Node.name).dedup

namespace EventTrigger

/-- The loop body of `checkpointPodContainers`. -/
def checkpointContainer (reason : String) (pod : Pod) (ok : Bool) (container : String) :
    Prog sig Bool := do
  match ← createCheckpoint reason pod.ns pod.name container pod.nodeName with
  | .error _ => return false
  | .ok _ => return ok

/-- `checkpointPodContainers`: whether every checkpoint succeeded. -/
def checkpointPodContainers (et : EventTrigger) (pod : Pod) (reason : String) : Prog sig Bool :=
  (filterContainers pod.toPodInfo et.spec.containerNames).foldlM (checkpointContainer reason pod)
    true

/-- One pod of a node that is drained: `fired` and `allOK` after it. -/
def drainPod (et : EventTrigger) (nodeName : String) (flags : Bool × Bool) (pod : Pod) :
    Prog sig (Bool × Bool) :=
  if pod.nodeName ≠ nodeName then return flags
  else do
    let ok ← et.checkpointPodContainers pod "node drain"
    return (true, flags.2 && ok)

/-- The pods of a node that is drained: whether there were any, and whether every checkpoint
    succeeded. -/
def drainNode (et : EventTrigger) (pods : List Pod) (nodeName : String) :
    Prog sig (Bool × Bool) :=
  pods.foldlM (et.drainPod nodeName) (false, true)

/-- One node of the loop over `drainingNow`. -/
def handleNode (pods : List Pod) (et : EventTrigger) (nodeName : String) :
    Prog sig EventTrigger :=
  if et.seenNodes.contains nodeName then return et
  else do
    let (fired, allOK) ← et.drainNode pods nodeName
    if fired && allOK then return { et with seenNodes := et.seenNodes ++ [nodeName] }
    else return et

/-- `handleNodeDrain`. -/
def handleNodeDrain (et : EventTrigger) (pods : List Pod) : Prog sig EventTrigger := do
  match ← listNodes with
  | .error _ => return et
  | .ok nodes =>
    -- nodes that are no longer draining are forgotten
    let et := { et with
      seenNodes := et.seenNodes.filter
        (fun nodeName => (drainingNow pods nodes).contains nodeName) }
    let names ← rangeMap (drainingNow pods nodes)
    names.foldlM (handleNode pods) et

/-- The drains, if they are watched. -/
def handleDrains (et : EventTrigger) (pods : List Pod) : Prog sig EventTrigger :=
  if et.watchNodeDrain then et.handleNodeDrain pods else pure et

/-- `checkpointOnce`. -/
def checkpointOnce (et : EventTrigger) (pod : Pod) (key reason : String) :
    Prog sig EventTrigger :=
  if et.seenPods.contains key then return et
  else do
    if ← et.checkpointPodContainers pod reason then
      return { et with seenPods := et.seenPods ++ [key] }
    else return et

/-- The eviction of a pod, if it is watched. -/
def handleEviction (et : EventTrigger) (pod : Pod) : Prog sig EventTrigger :=
  if et.watchPodEviction && pod.deletionTimestamp.isSome then
    et.checkpointOnce pod pod.key "pod eviction"
  else pure et

/-- The preemption of a pod, if it is watched. -/
def handlePreemption (et : EventTrigger) (pod : Pod) : Prog sig EventTrigger :=
  if et.watchPreemption && podIsPreempted pod then et.checkpointOnce pod pod.key "preemption"
  else pure et

/-- One pod of the loop in `run`. -/
def handlePod (et : EventTrigger) (pod : Pod) : Prog sig EventTrigger := do
  let et ← et.handleEviction pod
  et.handlePreemption pod

/-- `run`. -/
def run (et : EventTrigger) : Prog sig EventTrigger := do
  match ← getMatchingPods et.spec.ns et.spec.selector with
  | .error _ => return et
  | .ok pods =>
    -- pods that no longer exist are forgotten
    let et := { et with
      seenPods := et.seenPods.filter (fun key => (pods.map Pod.key).contains key) }
    let et ← et.handleDrains pods
    pods.foldlM handlePod et

end EventTrigger

/-! ### Answers and traces -/

/-- The answers there are: listed pods have distinct keys and the containers of a pod distinct
    names, and a map is ranged over in some order. -/
def pollAct : (op : sig.Op) → Unit → sig.Reply op → Unit → Prop
  | .listPods _ _, _, r, _ => match (r : Except String (List Pod)) with
    | .ok pods => (pods.map Pod.key).Nodup ∧ ∀ pod ∈ pods, pod.containers.Nodup
    | .error _ => True
  | .listNodes, _, _, _ => True
  | .rangeMap keys, _, r, _ => List.Perm (r : List String) keys
  | .createCheckpoint _ _ _ _ _, _, _, _ => True

/-- A checkpoint that succeeded. -/
def succeeded : Event sig → Bool
  | ⟨.createCheckpoint _ _ _ _ _, r⟩ => (r : Except String String).isOk
  | _ => false

/-- A checkpoint for the drain of the node. -/
def drainCall (node : String) : Event sig → Bool
  | ⟨.createCheckpoint reason _ _ _ n, _⟩ => reason == "node drain" && n == node
  | _ => false

/-- A checkpoint for the eviction or the preemption of the pod with the key. -/
def podCall (key : String) : Event sig → Bool
  | ⟨.createCheckpoint reason ns pod _ _, _⟩ => reason != "node drain" && ns ++ "/" ++ pod == key
  | _ => false

/-- The matching pods that were listed. -/
def podListing : Event sig → Option (List Pod)
  | ⟨.listPods _ _, r⟩ => match (r : Except String (List Pod)) with
    | .ok pods => some (pods.filter (fun pod => pod.running))
    | .error _ => none
  | _ => none

/-- The nodes that were listed. -/
def nodeListing : Event sig → Option (List Node)
  | ⟨.listNodes, r⟩ => match (r : Except String (List Node)) with
    | .ok nodes => some nodes
    | .error _ => none
  | _ => none

/-- The matching pods of a poll. -/
def polledPods (tr : List (Event sig)) : Option (List Pod) := tr.findSome? podListing

/-- The nodes of a poll. -/
def polledNodes (tr : List (Event sig)) : Option (List Node) := tr.findSome? nodeListing

/-- The checkpoint of a container. -/
def checkpointOp (reason : String) (pod : Pod) (container : String) : sig.Op :=
  Op.createCheckpoint reason pod.ns pod.name container pod.nodeName

/-- The checkpoints of a pod. -/
def EventTrigger.calls (et : EventTrigger) (reason : String) (pod : Pod) : List sig.Op :=
  (filterContainers pod.toPodInfo et.spec.containerNames).map (checkpointOp reason pod)

end CheckpointRestore.Schedule
