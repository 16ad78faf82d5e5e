import Mathlib.Data.List.Chain
import Mathlib.Data.List.Nodup
import CheckpointRestore.Schedule.EventPolls

namespace CheckpointRestore.Schedule

open Interaction
open Forensic (PodInfo ConditionStatus filterContainers)

/-!
# Disruptions over many polls — at most once, and none missed

What the event trigger's polls do together.  A poll carries its run, and consecutive polls pass
the trigger's memory on.

* `Poll`, `Follows` — a poll of the trigger, and the poll after it;
* `countP_le_one` — the rule for a signal that is handled once;
* `once_per_disruption` — during one disruption a container is checkpointed at most once, if the
  checkpoints that one signal asks for in a poll have the same outcome;
* `no_disruption_missed` — a disrupted pod is checkpointed, or was before, if no new instance turns
  up where the memory, which knows nodes and names only, has seen another one.
-/

/-- A poll: the trigger before and after it, what was asked and answered, and the run. -/
structure Poll where
  before : EventTrigger
  trace : List (Event sig)
  after : EventTrigger
  runs : Runs pollAct before.run () trace after ()

/-- A poll that starts with the memory the other has left. -/
def Follows (p q : Poll) : Prop := p.after = q.before

theorem Poll.polled (p : Poll) : Polled p.before p.trace p.after := run_polled p.runs

/-- A cluster that answers every question: its pods and nodes, and the containers whose checkpoints
    fail. -/
structure Cluster where
  pods : List Pod
  nodes : List Node
  failing : List String
  keys : (pods.map Pod.key).Nodup
  containers : ∀ pod ∈ pods, pod.containers.Nodup

/-- Its answers. -/
def Cluster.serve (cl : Cluster) : (op : sig.Op) → Unit → sig.Reply op × Unit
  | .listPods _ _, _ => (Except.ok cl.pods, ())
  | .listNodes, _ => (Except.ok cl.nodes, ())
  | .rangeMap keys, _ => (keys, ())
  | .createCheckpoint _ _ _ container _, _ =>
    (if container ∈ cl.failing then Except.error "checkpoint failed" else Except.ok container, ())

theorem Cluster.serve_act (cl : Cluster) (op : sig.Op) (s : Unit) :
    pollAct op s (cl.serve op s).1 (cl.serve op s).2 := by
  cases op with
  | listPods ns selector => exact ⟨cl.keys, cl.containers⟩
  | listNodes => trivial
  | rangeMap keys => exact List.Perm.refl keys
  | createCheckpoint reason ns pod container node => trivial

/-- The poll it answers. -/
def Cluster.poll (cl : Cluster) (et : EventTrigger) : Poll where
  before := et
  trace := trace cl.serve et.run ()
  after := (exec cl.serve et.run ()).1
  runs := Runs.of_exec cl.serve_act et.run ()

/-- The polls that one cluster after the other answers. -/
def pollAll : List Cluster → EventTrigger → List Poll
  | [], _ => []
  | cl :: rest, et => cl.poll et :: pollAll rest (cl.poll et).after

theorem pollAll_isChain (clusters : List Cluster) (et : EventTrigger) :
    (pollAll clusters et).IsChain Follows := by
  induction clusters generalizing et with
  | nil => exact .nil
  | cons cl rest ih =>
    refine (ih (cl.poll et).after).cons (fun q hq => ?_)
    cases rest with
    | nil => exact absurd hq (by simp [pollAll])
    | cons cl' rest =>
      obtain rfl := Option.some.inj hq
      rfl

/-! ### Targets -/

/-- Whose checkpoint an operation asks for: the pod's key and the container. -/
def target : sig.Op → Option (String × String)
  | .createCheckpoint _ ns pod container _ => some (ns ++ "/" ++ pod, container)
  | _ => none

/-- A successful checkpoint of a container among the selected ones. -/
def hit (sel : Event sig → Bool) (key container : String) (e : Event sig) : Bool :=
  sel e && target e.op == some (key, container) && succeeded e

/-- Hits are found among the selected events. -/
theorem countP_hit (sel : Event sig → Bool) (key container : String) (tr : List (Event sig)) :
    tr.countP (hit sel key container) = (tr.filter sel).countP (hit sel key container) := by
  rw [List.countP_filter]
  refine List.countP_congr (fun e _ => ?_)
  simp only [hit, Bool.and_eq_true]
  exact ⟨fun h => ⟨h, h.1.1⟩, fun h => h.1⟩

/-- Without a success there is no hit. -/
theorem countP_hit_eq_zero {sel : Event sig → Bool} {key container : String}
    {tr : List (Event sig)} (h : ∀ e ∈ tr, succeeded e = false) :
    tr.countP (hit sel key container) = 0 := by
  rw [List.countP_eq_zero]
  intro e he
  simp [hit, h e he]

/-- Distinct targets are hit at most once. -/
theorem countP_hit_le_one {sel : Event sig → Bool} {key container : String}
    {tr : List (Event sig)} (h : ((tr.map Event.op).map target).Nodup) :
    tr.countP (hit sel key container) ≤ 1 := by
  have hcount := List.nodup_iff_count_le_one.mp h (some (key, container))
  rw [List.count, List.countP_map, List.countP_map] at hcount
  refine le_trans (List.countP_mono_left (fun e _ he => ?_)) hcount
  simp only [hit, Bool.and_eq_true] at he
  simpa using he.1.2

variable {pod : Pod}

section Targets
variable (et : EventTrigger) (reason : String)

theorem map_target_calls (pod : Pod) :
    (et.calls reason pod).map target = (filterContainers pod.toPodInfo et.spec.containerNames).map
      (fun container => some (pod.key, container)) := by
  rw [EventTrigger.calls, List.map_map]
  rfl

/-- The containers of a pod are distinct targets. -/
theorem nodup_target_calls (h : pod.containers.Nodup) :
    ((et.calls reason pod).map target).Nodup := by
  have hselected : (filterContainers pod.toPodInfo et.spec.containerNames).Nodup := by
    unfold filterContainers
    split
    · exact h
    · exact h.filter _
  rw [map_target_calls]
  refine hselected.map (fun c c' heq => ?_)
  simpa using heq

/-- So are those of several pods. -/
theorem nodup_target_flatMap {pods : List Pod} (hkeys : (pods.map Pod.key).Nodup)
    (hcontainers : ∀ pod ∈ pods, pod.containers.Nodup) :
    ((pods.flatMap (et.calls reason)).map target).Nodup := by
  rw [List.map_flatMap, List.nodup_flatMap]
  refine ⟨fun pod hpod => nodup_target_calls et reason (hcontainers pod hpod), ?_⟩
  refine (List.pairwise_map.mp hkeys).imp (fun {pod pod'} hne t ht ht' => ?_)
  simp only [map_target_calls] at ht ht'
  obtain ⟨c, -, rfl⟩ := List.mem_map.mp ht
  obtain ⟨c', -, heq⟩ := List.mem_map.mp ht'
  have hpair : (pod'.key, c') = (pod.key, c) := Option.some.inj heq
  exact hne (congrArg Prod.fst hpair).symm

end Targets

/-! ### A signal that is handled once -/

/-- The checkpoints of consecutive polls. -/
def calls (polls : List Poll) : List (Event sig) := polls.flatMap Poll.trace

/-- **Handled once.**  If what was seen is left alone and stays seen, and what is hit is hit once
    and seen afterwards, there is at most one hit. -/
theorem countP_le_one (seen : EventTrigger → Prop) {count : Event sig → Bool} {polls : List Poll}
    (hchain : polls.IsChain Follows)
    (hagain : ∀ p ∈ polls, seen p.before → p.trace.countP count = 0 ∧ seen p.after)
    (hfirst : ∀ p ∈ polls, ¬ seen p.before → p.trace.countP count = 0 ∨
      p.trace.countP count ≤ 1 ∧ seen p.after) :
    (calls polls).countP count ≤ 1 := by
  -- once seen, there is no hit at all
  suffices hboth : (calls polls).countP count ≤ 1 ∧
      ∀ p ∈ polls.head?, seen p.before → (calls polls).countP count = 0 from hboth.1
  induction polls with
  | nil => simp [calls]
  | cons p rest ih =>
    have hrest := ih hchain.tail (fun q hq => hagain q (List.mem_cons_of_mem p hq))
      (fun q hq => hfirst q (List.mem_cons_of_mem p hq))
    have hcount : (calls (p :: rest)).countP count =
        p.trace.countP count + (calls rest).countP count := by
      simp [calls]
    have hseen : seen p.after → (calls rest).countP count = 0 := by
      intro hafter
      cases rest with
      | nil => rfl
      | cons q rest =>
        have hfollows : p.after = q.before := hchain.rel_head? rfl
        exact hrest.2 q rfl (hfollows ▸ hafter)
    rw [hcount]
    have hp : p ∈ p :: rest := List.mem_cons_self
    refine ⟨?_, fun q hq hbefore => ?_⟩
    · by_cases hbefore : seen p.before
      · obtain ⟨hzero, hafter⟩ := hagain p hp hbefore
        rw [hzero, hseen hafter]
        exact Nat.zero_le _
      · rcases hfirst p hp hbefore with hzero | ⟨hone, hafter⟩
        · rw [hzero, Nat.zero_add]
          exact hrest.1
        · rw [hseen hafter, Nat.add_zero]
          exact hone
    · obtain rfl : q = p := by simpa using hq.symm
      obtain ⟨hzero, hafter⟩ := hagain q hp hbefore
      rw [hzero, hseen hafter]

/-! ### At most once -/

/-- The signal that asks for a checkpoint: its reason, and the node or the pod. -/
def signal : sig.Op → Option (String × String)
  | .createCheckpoint reason ns pod _ node =>
    some (reason, if reason = "node drain" then node else ns ++ "/" ++ pod)
  | _ => none

/-- The checkpoints that one signal asks for in the poll all succeed or all fail. -/
def Poll.Uniform (p : Poll) : Prop :=
  ∀ e ∈ p.trace, ∀ e' ∈ p.trace, signal e.op = signal e'.op → succeeded e = succeeded e'

instance (p : Poll) : Decidable p.Uniform :=
  inferInstanceAs (Decidable (∀ e ∈ p.trace, ∀ e' ∈ p.trace, signal e.op = signal e'.op →
    succeeded e = succeeded e'))

/-- The node is unschedulable and hosts a matching pod, by what the poll was told. -/
def Poll.Draining (node : String) (p : Poll) : Prop :=
  ∀ pods nodes, polledPods p.trace = some pods → polledNodes p.trace = some nodes →
    node ∈ drainingNow pods nodes

/-- The pod with the key is listed, by what the poll was told. -/
def Poll.Listed (key : String) (p : Poll) : Prop :=
  ∀ pods, polledPods p.trace = some pods → key ∈ pods.map Pod.key

variable {sub : List (Event sig)} {et : EventTrigger} {reason : String}

section Once
variable {p : Poll} {node key container : String}

/-- Checkpoints of one signal have one outcome. -/
theorem Poll.Uniform.outcome (h : p.Uniform) (hsub : ∀ e ∈ sub, e ∈ p.trace)
    {s : Option (String × String)} (hsignal : ∀ e ∈ sub, signal e.op = s) :
    (∀ e ∈ sub, succeeded e = true) ∨ ∀ e ∈ sub, succeeded e = false := by
  cases sub with
  | nil => exact Or.inl (fun e he => absurd he List.not_mem_nil)
  | cons e₀ rest =>
    have hsame : ∀ e ∈ e₀ :: rest, succeeded e = succeeded e₀ := fun e he =>
      h e (hsub e he) e₀ (hsub e₀ List.mem_cons_self)
        ((hsignal e he).trans (hsignal e₀ List.mem_cons_self).symm)
    cases hfirst : succeeded e₀ with
    | true => exact Or.inl (fun e he => (hsame e he).trans hfirst)
    | false => exact Or.inr (fun e he => (hsame e he).trans hfirst)

/-- A drain that was seen is left alone while it lasts. -/
theorem Poll.drain_again (hdrain : p.Draining node) (hseen : node ∈ p.before.seenNodes) :
    p.trace.filter (drainCall node) = [] ∧ node ∈ p.after.seenNodes := by
  cases hpods : polledPods p.trace with
  | none =>
    obtain ⟨hsame, hnone, -⟩ := p.polled.unlisted hpods
    exact ⟨hnone node, hsame ▸ hseen⟩
  | some pods =>
    cases hnodes : polledNodes p.trace with
    | none =>
      obtain ⟨hsame, hnone⟩ := p.polled.undrained hnodes
      exact ⟨hnone node, hsame ▸ hseen⟩
    | some nodes =>
      exact ((p.polled.nodes pods nodes hpods hnodes).2 node).again (hdrain pods nodes hpods hnodes)
        hseen

/-- A drain that was not seen succeeds for no container, or for each one once and is seen. -/
theorem Poll.drain_first (huniform : p.Uniform) (hdrain : p.Draining node)
    (hseen : node ∉ p.before.seenNodes) :
    p.trace.countP (hit (drainCall node) key container) = 0 ∨
      p.trace.countP (hit (drainCall node) key container) ≤ 1 ∧ node ∈ p.after.seenNodes := by
  rw [countP_hit]
  cases hpods : polledPods p.trace with
  | none =>
    left
    rw [(p.polled.unlisted hpods).2.1 node]
    rfl
  | some pods =>
    cases hnodes : polledNodes p.trace with
    | none =>
      left
      rw [(p.polled.undrained hnodes).2 node]
      rfl
    | some nodes =>
      obtain ⟨hops, hmark⟩ := ((p.polled.nodes pods nodes hpods hnodes).2 node).first
        (hdrain pods nodes hpods hnodes) hseen
      -- all of them are made for one signal, so they succeed or fail together
      have hsignal : ∀ e ∈ p.trace.filter (drainCall node),
          signal e.op = some ("node drain", node) := by
        intro e he
        have hmem := List.mem_map_of_mem (f := Event.op) he
        rw [hops] at hmem
        obtain ⟨pod, hpod, hcall⟩ := List.mem_flatMap.mp hmem
        obtain ⟨c, -, hop⟩ := mem_calls hcall
        have hname : pod.nodeName = node := by simpa using (List.mem_filter.mp hpod).2
        rw [hop, ← hname]
        rfl
      -- either every checkpoint succeeds and the node is seen, or none counts
      rcases huniform.outcome (fun e he => (List.mem_filter.mp he).1) hsignal with hall | hnone
      · right
        refine ⟨countP_hit_le_one ?_, hmark.mpr hall⟩
        obtain ⟨hkeys, hcontainers⟩ := p.polled.valid pods hpods
        have hsub : (pods.filter (fun pod => pod.nodeName = node)).Sublist pods :=
          List.filter_sublist
        rw [hops]
        exact nodup_target_flatMap _ _ (hkeys.sublist (hsub.map Pod.key))
          (fun pod hpod => hcontainers pod (hsub.subset hpod))
      · exact Or.inl (countP_hit_eq_zero hnone)

/-- A pod that was seen is left alone while it is listed. -/
theorem Poll.pod_again (hlisted : p.Listed key) (hseen : key ∈ p.before.seenPods) :
    p.trace.filter (podCall key) = [] ∧ key ∈ p.after.seenPods := by
  cases hpods : polledPods p.trace with
  | none =>
    obtain ⟨hsame, -, hnone⟩ := p.polled.unlisted hpods
    exact ⟨hnone key, hsame ▸ hseen⟩
  | some pods =>
    obtain ⟨pod, hpod, rfl⟩ := List.mem_map.mp (hlisted pods hpods)
    exact (p.polled.pods pods hpods pod hpod).again hseen

/-- The checkpoints of one pod signal have one outcome. -/
theorem Poll.Uniform.signal_outcome (h : p.Uniform) (hsub : ∀ e ∈ sub, e ∈ p.trace)
    (hops : sub.map Event.op = et.calls reason pod) :
    (∀ e ∈ sub, succeeded e = true) ∨ ∀ e ∈ sub, succeeded e = false := by
  have hsignal : ∀ e ∈ sub, signal e.op =
      some (reason, if reason = "node drain" then pod.nodeName else pod.key) := by
    intro e he
    have hmem := List.mem_map_of_mem (f := Event.op) he
    rw [hops] at hmem
    obtain ⟨c, -, hop⟩ := mem_calls hmem
    rw [hop]
    rfl
  exact h.outcome hsub hsignal

/-- The eviction of a pod that stays unseen succeeds for no container. -/
theorem Poll.Uniform.unevicted (h : p.Uniform) {evicted : List (Event sig)}
    (hsub : ∀ e ∈ evicted, e ∈ p.trace) (hu : Unevicted et pod evicted) (sel : Event sig → Bool) :
    evicted.countP (hit sel key container) = 0 := by
  rcases hu with ⟨-, rfl⟩ | ⟨-, hops, e, he, hfailed⟩
  · rfl
  · rcases h.signal_outcome hsub hops with hall | hnone
    · exact absurd (hall e he) (by simp [hfailed])
    · exact countP_hit_eq_zero hnone

/-- The calls for a pod that was not seen, by the signal they answer. -/
theorem Poll.signals_of_polled
    (h : PodPolled p.before p.after pod (p.trace.filter (podCall pod.key)))
    (hseen : pod.key ∉ p.before.seenPods) :
    ∃ evicted preempted, p.trace.filter (podCall pod.key) = evicted ++ preempted ∧
      (∀ e ∈ evicted, e ∈ p.trace) ∧ (∀ e ∈ preempted, e ∈ p.trace) ∧
      Signals p.before pod evicted preempted (pod.key ∈ p.after.seenPods) := by
  obtain ⟨evicted, preempted, hcalls, hsignals⟩ := h.first hseen
  have hsub : ∀ e ∈ evicted ++ preempted, e ∈ p.trace := by
    rw [← hcalls]
    exact fun e he => (List.mem_filter.mp he).1
  exact ⟨evicted, preempted, hcalls, fun e he => hsub e (List.mem_append_left preempted he),
    fun e he => hsub e (List.mem_append_right evicted he), hsignals⟩

/-- A pod that was not seen is checkpointed for no container, or for each one once and is seen. -/
theorem Poll.pod_first (huniform : p.Uniform) (hlisted : p.Listed key)
    (hseen : key ∉ p.before.seenPods) :
    p.trace.countP (hit (podCall key) key container) = 0 ∨
      p.trace.countP (hit (podCall key) key container) ≤ 1 ∧ key ∈ p.after.seenPods := by
  rw [countP_hit]
  cases hpods : polledPods p.trace with
  | none =>
    left
    rw [(p.polled.unlisted hpods).2.2 key]
    rfl
  | some pods =>
    obtain ⟨pod, hpod, rfl⟩ := List.mem_map.mp (hlisted pods hpods)
    have hcontainers := (p.polled.valid pods hpods).2 pod hpod
    obtain ⟨evicted, preempted, hcalls, hevicted, hpreempted, hsignals⟩ :=
      Poll.signals_of_polled (p.polled.pods pods hpods pod hpod) hseen
    rw [hcalls, List.countP_append]
    cases hsignals with
    | evicted hdue hops hall hnone hmark =>
      right
      rw [hnone, List.countP_nil, Nat.add_zero]
      refine ⟨countP_hit_le_one ?_, hmark⟩
      rw [hops]
      exact nodup_target_calls _ _ hcontainers
    | preempted hu hdue hops hmark =>
      -- checkpoints for the eviction were not made or failed, and those for the preemption count
      rw [huniform.unevicted hevicted hu, Nat.zero_add]
      rcases huniform.signal_outcome hpreempted hops with hall | hnone
      · right
        refine ⟨countP_hit_le_one ?_, hmark.mpr hall⟩
        rw [hops]
        exact nodup_target_calls _ _ hcontainers
      · exact Or.inl (countP_hit_eq_zero hnone)
    | neither hu hdue hnone hmark =>
      left
      rw [huniform.unevicted hevicted hu, hnone]
      rfl

end Once

/-- **Once per disruption.**  Over consecutive polls at which a node is draining, its drain
    checkpoints each container at most once, and over consecutive polls at which a pod is listed,
    its eviction and its preemption do, if the checkpoints that one signal asks for in a poll have
    the same outcome. -/
theorem once_per_disruption (polls : List Poll) (hchain : polls.IsChain Follows)
    (huniform : ∀ p ∈ polls, p.Uniform) :
    (∀ node key container, (∀ p ∈ polls, p.Draining node) →
      (calls polls).countP (hit (drainCall node) key container) ≤ 1) ∧
    ∀ key container, (∀ p ∈ polls, p.Listed key) →
      (calls polls).countP (hit (podCall key) key container) ≤ 1 := by
  refine ⟨fun node key container hdrain => ?_, fun key container hlisted => ?_⟩
  · refine countP_le_one (fun et => node ∈ et.seenNodes) hchain (fun p hp hseen => ?_)
      (fun p hp => Poll.drain_first (huniform p hp) (hdrain p hp))
    obtain ⟨hnone, hafter⟩ := Poll.drain_again (hdrain p hp) hseen
    rw [countP_hit, hnone]
    exact ⟨rfl, hafter⟩
  · refine countP_le_one (fun et => key ∈ et.seenPods) hchain (fun p hp hseen => ?_)
      (fun p hp => Poll.pod_first (huniform p hp) (hlisted p hp))
    obtain ⟨hnone, hafter⟩ := Poll.pod_again (hlisted p hp) hseen
    rw [countP_hit, hnone]
    exact ⟨rfl, hafter⟩

/-- A running pod with two containers that is being evicted from a node. -/
def webPod : Pod where
  name := "web-0"
  running := true
  containers := ["app", "proxy"]
  nodeName := "node-a"
  uid := "uid-0"
  ns := "apps"
  deletionTimestamp := some 30
  conditions := []

/-- Its cluster, whose node is being drained. -/
def webCluster (failing : List String) : Cluster where
  pods := [webPod]
  nodes := [⟨"node-a", true⟩]
  failing := failing
  keys := by simp
  containers := by decide

/-- A schedule that watches all signals. -/
def webSpec : Spec where
  ns := "apps"
  selector := "app=web"
  containerNames := []
  triggers := {
    interval := none
    resourceThreshold := none
    onKubernetesEvents := ["NodeDrain", "PodEviction", "Preemption"]
    onAnnotation := false }

/-- Two polls, with the containers that fail in each. -/
def twoPolls (first second : List String) : List Poll :=
  pollAll [webCluster first, webCluster second] (newEventTrigger webSpec)

theorem twoPolls_listed (first second : List String) :
    ∀ p ∈ twoPolls first second, p.Listed "apps/web-0" := by
  intro p hp pods hpods
  have hlisted : polledPods p.trace = some [webPod] := by
    rcases List.mem_pair.mp hp with rfl | rfl <;> rfl
  obtain rfl := Option.some.inj (hlisted.symm.trans hpods)
  decide

/-- The rule at work: the first poll fails altogether, and the second succeeds. -/
theorem once_per_disruption_retried :
    (calls (twoPolls ["app", "proxy"] [])).countP
      (hit (podCall "apps/web-0") "apps/web-0" "proxy") ≤ 1 :=
  (once_per_disruption _ (pollAll_isChain _ _) (by decide)).2 "apps/web-0" "proxy"
    (twoPolls_listed _ _)

/-- A poll at which one container fails is repeated for all of them: the other container is
    checkpointed at both polls, for the drain and for the eviction. -/
theorem partial_failure_repeats :
    (twoPolls ["app"] []).IsChain Follows ∧
    (∀ p ∈ twoPolls ["app"] [], p.Draining "node-a" ∧ p.Listed "apps/web-0") ∧
    (calls (twoPolls ["app"] [])).countP
      (hit (drainCall "node-a") "apps/web-0" "proxy") = 2 ∧
    (calls (twoPolls ["app"] [])).countP
      (hit (podCall "apps/web-0") "apps/web-0" "proxy") = 2 := by
  refine ⟨pollAll_isChain _ _, fun p hp => ⟨fun pods nodes hpods hnodes => ?_,
    twoPolls_listed _ _ p hp⟩, by decide, by decide⟩
  have hlistedPods : polledPods p.trace = some [webPod] := by
    rcases List.mem_pair.mp hp with rfl | rfl <;> rfl
  have hlistedNodes : polledNodes p.trace = some [⟨"node-a", true⟩] := by
    rcases List.mem_pair.mp hp with rfl | rfl <;> rfl
  obtain rfl := Option.some.inj (hlistedPods.symm.trans hpods)
  obtain rfl := Option.some.inj (hlistedNodes.symm.trans hnodes)
  decide

/-! ### None missed -/

/-- The matching pods the poll was told of. -/
def Poll.pods (p : Poll) : List Pod := (polledPods p.trace).getD []

/-- The nodes the poll was told of. -/
def Poll.nodes (p : Poll) : List Node := (polledNodes p.trace).getD []

/-- The listings of the poll succeed. -/
def Poll.Answered (p : Poll) : Prop :=
  (polledPods p.trace).isSome = true ∧
    (p.before.watchNodeDrain = true → (polledNodes p.trace).isSome = true)

/-- The node of the pod is unschedulable. -/
def Poll.Unschedulable (p : Poll) (pod : Pod) : Prop :=
  pod.nodeName ≠ "" ∧ ∃ node ∈ p.nodes, node.name = pod.nodeName ∧ node.unschedulable = true

/-- The pod is disrupted by a signal that the schedule watches. -/
def Poll.Disrupted (spec : Spec) (p : Poll) (pod : Pod) : Prop :=
  "NodeDrain" ∈ spec.triggers.onKubernetesEvents ∧ p.Unschedulable pod ∨
  "PodEviction" ∈ spec.triggers.onKubernetesEvents ∧ pod.deletionTimestamp ≠ none ∨
  "Preemption" ∈ spec.triggers.onKubernetesEvents ∧ podIsPreempted pod = true

/-- Every selected container of the pod is checkpointed in the poll, whatever comes of it. -/
def Poll.Asked (spec : Spec) (p : Poll) (pod : Pod) : Prop :=
  ∀ container ∈ filterContainers pod.toPodInfo spec.containerNames,
    ∃ e ∈ p.trace, ∃ reason, e.op = checkpointOp reason pod container

/-- The poll was told of the same instance, and every selected container was checkpointed. -/
def Poll.Checkpointed (spec : Spec) (p : Poll) (pod : Pod) : Prop :=
  ∃ pod' ∈ p.pods, pod'.uid = pod.uid ∧
    ∀ container ∈ filterContainers pod.toPodInfo spec.containerNames,
      ∃ e ∈ p.trace, (∃ reason, e.op = checkpointOp reason pod' container) ∧ succeeded e = true

/-- Kubernetes' guarantee for a UID: the pod's namespace, name, node and containers do not change
    while it is running. -/
def Identified (polls : List Poll) : Prop :=
  ∀ p ∈ polls, ∀ q ∈ polls, ∀ pod ∈ p.pods, ∀ pod' ∈ q.pods, pod.uid = pod'.uid →
    pod.key = pod'.key ∧ pod.nodeName = pod'.nodeName ∧ pod.containers = pod'.containers

/-- No instance that the poll before was not told of is on a draining node that was seen, or has
    the name of a pod that was seen. -/
def Familiar (p q : Poll) : Prop :=
  ∀ pod ∈ q.pods, q.Unschedulable pod ∧ pod.nodeName ∈ q.before.seenNodes ∨
    pod.key ∈ q.before.seenPods → ∃ pod' ∈ p.pods, pod'.uid = pod.uid

/-- The trigger was started for the schedule. -/
def StartedFor (spec : Spec) (et : EventTrigger) : Prop :=
  et = { newEventTrigger spec with seenNodes := et.seenNodes, seenPods := et.seenPods }

section Attended
variable {spec : Spec} {p : Poll} {pod : Pod}

theorem StartedFor.after (h : StartedFor spec p.before) : StartedFor spec p.after := by
  have hconfig := p.polled.config
  rw [h] at hconfig
  exact hconfig

theorem StartedFor.calls_eq (h : StartedFor spec et) (reason : String) :
    et.calls reason pod =
      (filterContainers pod.toPodInfo spec.containerNames).map (checkpointOp reason pod) := by
  rw [EventTrigger.calls, h]
  rfl

/-- A node of a listed pod drains if it is unschedulable. -/
theorem Poll.mem_drainingNow (hpod : pod ∈ p.pods) :
    pod.nodeName ∈ drainingNow p.pods p.nodes ↔ p.Unschedulable pod := by
  unfold drainingNow
  rw [List.mem_dedup]
  refine ⟨fun hmem => ?_, fun ⟨hne, node, hnode, hname, hun⟩ => ?_⟩
  · obtain ⟨node, hnode, hname⟩ := List.mem_map.mp hmem
    obtain ⟨hlisted, hboth⟩ := List.mem_filter.mp hnode
    rw [Bool.and_eq_true, List.any_eq_true] at hboth
    obtain ⟨hun, pod', -, hhost⟩ := hboth
    rw [Bool.and_eq_true] at hhost
    have hname' : pod'.nodeName = pod.nodeName := by
      rw [← hname]
      simpa using hhost.2
    have hne : pod'.nodeName ≠ "" := by simpa using hhost.1
    exact ⟨hname' ▸ hne, node, hlisted, hname, hun⟩
  · refine List.mem_map.mpr ⟨node, List.mem_filter.mpr ⟨hnode, ?_⟩, hname⟩
    rw [Bool.and_eq_true, List.any_eq_true]
    exact ⟨hun, pod, hpod, by simp [hne, hname]⟩

/-- `sub` holds a checkpoint for every selected container of the pod. -/
def AllIn (spec : Spec) (pod : Pod) (reason : String) (sub : List (Event sig)) : Prop :=
  ∀ container ∈ filterContainers pod.toPodInfo spec.containerNames,
    checkpointOp reason pod container ∈ sub.map Event.op

theorem AllIn.asked (h : AllIn spec pod reason sub) (hsub : ∀ e ∈ sub, e ∈ p.trace) :
    p.Asked spec pod := by
  intro container hcontainer
  obtain ⟨e, he, hop⟩ := List.mem_map.mp (h container hcontainer)
  exact ⟨e, hsub e he, reason, hop⟩

theorem AllIn.checkpointed (h : AllIn spec pod reason sub) (hsub : ∀ e ∈ sub, e ∈ p.trace)
    (hpod : pod ∈ p.pods) (hall : ∀ e ∈ sub, succeeded e = true) : p.Checkpointed spec pod := by
  refine ⟨pod, hpod, rfl, fun container hcontainer => ?_⟩
  obtain ⟨e, he, hop⟩ := List.mem_map.mp (h container hcontainer)
  exact ⟨e, hsub e he, ⟨reason, hop⟩, hall e he⟩

theorem StartedFor.allIn (h : StartedFor spec et) (hops : sub.map Event.op = et.calls reason pod) :
    AllIn spec pod reason sub := by
  intro container hcontainer
  rw [hops, h.calls_eq]
  exact List.mem_map_of_mem hcontainer

/-- What an answered poll does about a node. -/
theorem Poll.Answered.nodeHandled (h : p.Answered) (hwatch : p.before.watchNodeDrain = true)
    (node : String) :
    NodeHandled p.before p.after p.pods (node ∈ drainingNow p.pods p.nodes) node
      (p.trace.filter (drainCall node)) := by
  obtain ⟨pods, hpods⟩ := Option.isSome_iff_exists.mp h.1
  obtain ⟨nodes, hnodes⟩ := Option.isSome_iff_exists.mp (h.2 hwatch)
  have hhandled := (p.polled.nodes pods nodes hpods hnodes).2 node
  rwa [show p.pods = pods by rw [Poll.pods, hpods]; rfl,
    show p.nodes = nodes by rw [Poll.nodes, hnodes]; rfl]

/-- What it does about a pod. -/
theorem Poll.Answered.podPolled (h : p.Answered) (hpod : pod ∈ p.pods) :
    PodPolled p.before p.after pod (p.trace.filter (podCall pod.key)) := by
  obtain ⟨pods, hpods⟩ := Option.isSome_iff_exists.mp h.1
  rw [show p.pods = pods by rw [Poll.pods, hpods]; rfl] at hpod
  exact p.polled.pods pods hpods pod hpod

/-- The checkpoints for a drain hold those of each pod on the node. -/
theorem StartedFor.allIn_drain (h : StartedFor spec et) {pods : List Pod} (hpod : pod ∈ pods)
    (hops : sub.map Event.op = (pods.filter (fun pod' => pod'.nodeName = pod.nodeName)).flatMap
      (et.calls "node drain")) :
    AllIn spec pod "node drain" sub := by
  intro container hcontainer
  rw [hops, List.mem_flatMap]
  refine ⟨pod, List.mem_filter.mpr ⟨hpod, by simp⟩, ?_⟩
  rw [h.calls_eq]
  exact List.mem_map_of_mem hcontainer

section Step
variable (hstarted : StartedFor spec p.before) (hanswered : p.Answered) (hpod : pod ∈ p.pods)
include hstarted hanswered hpod

/-- A pod on a node that is seen after the poll: the node drains, and it was seen before or the
    poll checkpointed the pod. -/
theorem Poll.node_seen (hwatch : p.before.watchNodeDrain = true)
    (hseen : pod.nodeName ∈ p.after.seenNodes) :
    p.Unschedulable pod ∧ (pod.nodeName ∈ p.before.seenNodes ∨ p.Checkpointed spec pod) := by
  have hnode := hanswered.nodeHandled hwatch pod.nodeName
  have hdraining : pod.nodeName ∈ drainingNow p.pods p.nodes := by
    by_contra hnot
    exact (hnode.ended hnot).2 hseen
  refine ⟨(Poll.mem_drainingNow hpod).mp hdraining, ?_⟩
  by_cases hbefore : pod.nodeName ∈ p.before.seenNodes
  · exact Or.inl hbefore
  · obtain ⟨hops, hmark⟩ := hnode.first hdraining hbefore
    exact Or.inr ((hstarted.allIn_drain hpod hops).checkpointed
      (fun e he => (List.mem_filter.mp he).1) hpod (hmark.mp hseen))

/-- A pod on a draining node: the node was seen, or the poll asks for the pod's checkpoints. -/
theorem Poll.node_asked (hwatch : p.before.watchNodeDrain = true) (hun : p.Unschedulable pod) :
    pod.nodeName ∈ p.before.seenNodes ∨ p.Asked spec pod := by
  have hnode := hanswered.nodeHandled hwatch pod.nodeName
  by_cases hbefore : pod.nodeName ∈ p.before.seenNodes
  · exact Or.inl hbefore
  · obtain ⟨hops, -⟩ := hnode.first ((Poll.mem_drainingNow hpod).mpr hun) hbefore
    exact Or.inr ((hstarted.allIn_drain hpod hops).asked (fun e he => (List.mem_filter.mp he).1))

/-- A pod that is seen after the poll was seen before or checkpointed in it. -/
theorem Poll.pod_seen (hseen : pod.key ∈ p.after.seenPods) :
    pod.key ∈ p.before.seenPods ∨ p.Checkpointed spec pod := by
  by_cases hbefore : pod.key ∈ p.before.seenPods
  · exact Or.inl hbefore
  · right
    obtain ⟨evicted, preempted, -, hevictions, hpreemptions, hsignals⟩ :=
      Poll.signals_of_polled (hanswered.podPolled hpod) hbefore
    cases hsignals with
    | evicted hdue hops hall hnone hmark =>
      exact (hstarted.allIn hops).checkpointed hevictions hpod hall
    | preempted hu hdue hops hmark =>
      exact (hstarted.allIn hops).checkpointed hpreemptions hpod (hmark.mp hseen)
    | neither hu hdue hnone hmark => exact absurd hseen hmark

/-- A pod with a signal that is due was seen, or the poll asks for its checkpoints. -/
theorem Poll.pod_asked
    (hdue : p.before.evictionDue pod = true ∨ p.before.preemptionDue pod = true) :
    pod.key ∈ p.before.seenPods ∨ p.Asked spec pod := by
  by_cases hbefore : pod.key ∈ p.before.seenPods
  · exact Or.inl hbefore
  · right
    obtain ⟨evicted, preempted, -, hevictions, hpreemptions, hsignals⟩ :=
      Poll.signals_of_polled (hanswered.podPolled hpod) hbefore
    have hevicted : evicted.map Event.op = p.before.calls "pod eviction" pod →
        p.Asked spec pod := fun hops => (hstarted.allIn hops).asked hevictions
    cases hsignals with
    | evicted hdue' hops hall hnone hmark => exact hevicted hops
    | preempted hu hdue' hops hmark => exact (hstarted.allIn hops).asked hpreemptions
    | neither hu hnot hnone hmark =>
      -- only the eviction is due, and a checkpoint for it failed
      rcases hu with ⟨hnot', -⟩ | ⟨-, hops, -⟩
      · rcases hdue with hdue | hdue
        · exact absurd hdue (by simp [hnot'])
        · exact absurd hdue (by simp [hnot])
      · exact hevicted hops

end Step

/-- It is the instance that counts. -/
theorem Poll.Checkpointed.of_uid {pod' : Pod} (h : p.Checkpointed spec pod')
    (huid : pod'.uid = pod.uid) (hcontainers : pod'.containers = pod.containers) :
    p.Checkpointed spec pod := by
  obtain ⟨listed, hlisted, heq, hall⟩ := h
  have hselected : filterContainers pod.toPodInfo spec.containerNames =
      filterContainers pod'.toPodInfo spec.containerNames := by
    unfold filterContainers
    rw [hcontainers]
  refine ⟨listed, hlisted, heq.trans huid, ?_⟩
  rw [hselected]
  exact hall

end Attended

section Run
variable {spec : Spec} {polls : List Poll}
  (hstart : ∀ p ∈ polls.head?, p.before = newEventTrigger spec)
  (hchain : polls.IsChain Follows) (hanswered : ∀ p ∈ polls, p.Answered)
  (hidentified : Identified polls) (hfamiliar : polls.IsChain Familiar)
include hstart hchain hanswered hidentified hfamiliar

/-- The invariant: what the memory keeps from a poll was checkpointed at an earlier one. -/
theorem remembered_checkpointed (past : List Poll) (q : Poll) (rest : List Poll)
    (hsplit : polls = past ++ q :: rest) :
    StartedFor spec q.before ∧ ∀ pod ∈ q.pods,
      q.before.watchNodeDrain = true ∧ q.Unschedulable pod ∧
          pod.nodeName ∈ q.before.seenNodes ∨ pod.key ∈ q.before.seenPods →
        ∃ p ∈ past, p.Checkpointed spec pod := by
  induction past using List.reverseRecOn generalizing q rest with
  | nil =>
    -- the trigger starts with an empty memory
    have hbefore : q.before = newEventTrigger spec := hstart q (by rw [hsplit]; rfl)
    refine ⟨by rw [hbefore]; rfl, fun pod hpod hseen => ?_⟩
    rw [hbefore] at hseen
    rcases hseen with ⟨-, -, hseen⟩ | hseen <;> exact absurd hseen List.not_mem_nil
  | append_singleton past p ih =>
    have hsplit' : polls = past ++ p :: q :: rest := by rw [hsplit]; simp
    obtain ⟨hstarted, hbefore⟩ := ih p (q :: rest) hsplit'
    have hp : p ∈ polls := by rw [hsplit']; simp
    have hq : q ∈ polls := by rw [hsplit']; simp
    have hfollows : p.after = q.before := by
      rw [hsplit'] at hchain
      exact (List.isChain_append_cons_cons.mp hchain).2.1
    have hfam : Familiar p q := by
      rw [hsplit'] at hfamiliar
      exact (List.isChain_append_cons_cons.mp hfamiliar).2.1
    refine ⟨hfollows ▸ hstarted.after, fun pod hpod hseen => ?_⟩
    -- the same instance was listed at the poll before
    obtain ⟨pod', hpod', huid⟩ := hfam pod hpod (hseen.imp (fun h => h.2) id)
    obtain ⟨hkey, hnode, hcontainers⟩ := hidentified p hp q hq pod' hpod' pod hpod huid
    have hearlier : (∃ r ∈ past, r.Checkpointed spec pod') ∨ p.Checkpointed spec pod' := by
      rw [← hfollows] at hseen
      rcases hseen with ⟨hwatch, -, hseen⟩ | hseen
      · have hwatch' : p.before.watchNodeDrain = true := by
          rw [p.polled.config] at hwatch
          exact hwatch
        obtain ⟨hun, hor⟩ := Poll.node_seen hstarted (hanswered p hp) hpod' hwatch' (hnode ▸ hseen)
        exact hor.imp (fun h => hbefore pod' hpod' (Or.inl ⟨hwatch', hun, h⟩)) id
      · exact (Poll.pod_seen hstarted (hanswered p hp) hpod' (hkey ▸ hseen)).imp
          (fun h => hbefore pod' hpod' (Or.inr h)) id
    rcases hearlier with ⟨r, hr, hdone⟩ | hdone
    · exact ⟨r, List.mem_append_left _ hr, hdone.of_uid huid hcontainers⟩
    · exact ⟨p, List.mem_append_right _ (List.mem_singleton.mpr rfl),
        hdone.of_uid huid hcontainers⟩

end Run

/-- **No disrupted pod is missed.**  From the start of the trigger, at every poll, each listed pod
    that is disrupted by a watched signal is checkpointed, or was at an earlier poll, if no new
    instance turns up on a draining node that was seen or under a name that was seen. -/
theorem no_disruption_missed (spec : Spec) (polls : List Poll)
    (hstart : ∀ p ∈ polls.head?, p.before = newEventTrigger spec)
    (hchain : polls.IsChain Follows) (hanswered : ∀ p ∈ polls, p.Answered)
    (hidentified : Identified polls) (hfamiliar : polls.IsChain Familiar) :
    ∀ past q rest, polls = past ++ q :: rest → ∀ pod ∈ q.pods, q.Disrupted spec pod →
      q.Asked spec pod ∨ ∃ p ∈ past, p.Checkpointed spec pod := by
  intro past q rest hsplit pod hpod hdisrupted
  obtain ⟨hstarted, hseen⟩ := remembered_checkpointed hstart hchain hanswered hidentified hfamiliar
    past q rest hsplit
  have hq : q.Answered := hanswered q (by rw [hsplit]; simp)
  -- the flags of the trigger are those of the schedule
  have hdue : q.before.watchNodeDrain = true ∧ q.Unschedulable pod ∨
      q.before.evictionDue pod = true ∨ q.before.preemptionDue pod = true := by
    rw [hstarted]
    unfold Poll.Disrupted at hdisrupted
    simpa [newEventTrigger, EventTrigger.evictionDue, EventTrigger.preemptionDue,
      Option.isSome_iff_ne_none] using hdisrupted
  rcases hdue with ⟨hwatch, hun⟩ | hdue
  · rcases Poll.node_asked hstarted hq hpod hwatch hun with hnode | hasked
    · exact Or.inr (hseen pod hpod (Or.inl ⟨hwatch, hun, hnode⟩))
    · exact Or.inl hasked
  · rcases Poll.pod_asked hstarted hq hpod hdue with hkey | hasked
    · exact Or.inr (hseen pod hpod (Or.inr hkey))
    · exact Or.inl hasked

/-- The rule at work: a poll that fails for one container, and the next. -/
theorem no_disruption_missed_retried :
    ∃ p q, twoPolls ["app"] [] = [p, q] ∧ webPod ∈ q.pods ∧ q.Disrupted webSpec webPod ∧
      (q.Asked webSpec webPod ∨ p.Checkpointed webSpec webPod) := by
  have hhandled := no_disruption_missed webSpec (twoPolls ["app"] []) (fun p hp => by
      obtain rfl := Option.some.inj hp
      rfl)
    (pollAll_isChain _ _) (by unfold Poll.Answered; decide) (by unfold Identified; decide)
    (.cons_cons (by unfold Familiar Poll.Unschedulable; decide) (.singleton _))
  have hlisted : ∀ q ∈ twoPolls ["app"] [], webPod ∈ q.pods := by decide
  have hdisrupted : ∀ q ∈ twoPolls ["app"] [], q.Disrupted webSpec webPod := by
    unfold Poll.Disrupted Poll.Unschedulable
    decide
  obtain ⟨p, q, hpolls⟩ : ∃ p q, twoPolls ["app"] [] = [p, q] := ⟨_, _, rfl⟩
  have hq : q ∈ twoPolls ["app"] [] := by simp [hpolls]
  refine ⟨p, q, hpolls, hlisted q hq, hdisrupted q hq, ?_⟩
  rcases hhandled [p] q [] hpolls webPod (hlisted q hq) (hdisrupted q hq) with hasked | hdone
  · exact .inl hasked
  · exact .inr (by simpa using hdone)

/-- A pod that is started on the node. -/
def latePod : Pod := { webPod with name := "web-1", uid := "uid-1", deletionTimestamp := none }

/-- The pod of the same name that replaces it. -/
def replacedPod : Pod := { webPod with uid := "uid-2", nodeName := "node-b" }

/-- The cluster with the pods. -/
def podsCluster (pods : List Pod) (keys : (pods.map Pod.key).Nodup)
    (containers : ∀ pod ∈ pods, pod.containers.Nodup) : Cluster where
  pods := pods
  nodes := [⟨"node-a", true⟩, ⟨"node-b", false⟩]
  failing := []
  keys := keys
  containers := containers

/-- The pod has been handled, and another one is listed on its node. -/
def latePolls : List Poll :=
  pollAll [webCluster [], podsCluster [webPod, latePod] (by decide) (by decide)]
    (newEventTrigger webSpec)

/-- The pod has been handled, and its successor is listed under its name. -/
def replacedPolls : List Poll :=
  pollAll [webCluster [], podsCluster [replacedPod] (by decide) (by decide)]
    (newEventTrigger webSpec)

/-- The last poll misses a pod. -/
def Misses (spec : Spec) (polls : List Poll) : Prop :=
  (∀ p ∈ polls.head?, p.before = newEventTrigger spec) ∧ polls.IsChain Follows ∧
  (∀ p ∈ polls, p.Answered) ∧ Identified polls ∧ ∃ past q, polls = past ++ [q] ∧
    ∃ pod ∈ q.pods, q.Disrupted spec pod ∧ ¬ q.Asked spec pod ∧
      ∀ p ∈ past, ¬ p.Checkpointed spec pod

/-- A pod is not asked for if one of its containers is not a target. -/
theorem Poll.not_asked {spec : Spec} {p : Poll} (container : String)
    (hselected : container ∈ filterContainers pod.toPodInfo spec.containerNames)
    (h : ∀ e ∈ p.trace, target e.op ≠ some (pod.key, container)) : ¬ p.Asked spec pod := by
  intro hasked
  obtain ⟨e, he, reason, hop⟩ := hasked container hselected
  refine h e he ?_
  rw [hop]
  rfl

/-- A poll that was not told of the instance has not checkpointed it. -/
theorem Poll.not_checkpointed {spec : Spec} {p : Poll} (h : ∀ pod' ∈ p.pods, pod'.uid ≠ pod.uid) :
    ¬ p.Checkpointed spec pod := by
  rintro ⟨pod', hpod', huid, -⟩
  exact h pod' hpod' huid

/-- The memory is by node and by name: a pod that starts on a draining node that has been handled
    is missed, and so is the evicted successor of a pod that has been handled. -/
theorem new_instances_missed : Misses webSpec latePolls ∧ Misses webSpec replacedPolls := by
  refine ⟨⟨fun p hp => ?_, pollAll_isChain _ _, by unfold Poll.Answered; decide,
    by unfold Identified; decide, [_], _, rfl, latePod, by decide, Or.inl ⟨by decide, ?_⟩,
    Poll.not_asked "app" (by decide) (by decide), fun p hp => ?_⟩,
    ⟨fun p hp => ?_, pollAll_isChain _ _, by unfold Poll.Answered; decide,
    by unfold Identified; decide, [_], _, rfl, replacedPod, by decide,
    Or.inr (Or.inl ⟨by decide, by decide⟩), Poll.not_asked "app" (by decide) (by decide),
    fun p hp => ?_⟩⟩
  · obtain rfl := Option.some.inj hp
    rfl
  · unfold Poll.Unschedulable
    decide
  · obtain rfl := List.mem_singleton.mp hp
    exact Poll.not_checkpointed (by decide)
  · obtain rfl := Option.some.inj hp
    rfl
  · obtain rfl := List.mem_singleton.mp hp
    exact Poll.not_checkpointed (by decide)

end CheckpointRestore.Schedule
