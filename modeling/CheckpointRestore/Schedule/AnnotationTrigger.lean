import CheckpointRestore.Lib.Pool
import CheckpointRestore.Schedule.EventTrigger

namespace CheckpointRestore.Schedule.OnDemand

open Interaction
open Forensic (PodInfo filterContainers)

/-!
# `AnnotationTrigger` — checkpoints on demand

A pod that carries the annotation `checkpoint.criu.org/trigger: "true"` is checkpointed by the
triggers of the schedules that match it, and the annotation is removed.  The polls of several
schedules, the users that set annotations and everybody else work on the same pods side by side.

* `run` — one poll;
* `world` — polls and users over the stored pods, with a history of what has happened to them;
* `run_specified` — a poll removes the annotation of a pod that it has listed and whose selected
  containers it has all checkpointed;
* `removal_honours_request` — the removal honours the request, if the schedule that removes the
  annotation selects what every matching schedule selects, and the annotation is not set anew in
  between.
-/

/-! ### The outside world -/

/-- A pod: who it is, its labels, and the value of the annotation. -/
structure AnnotatedPod extends PodInfo where
  ns : String
  labels : List (String × String)
  trigger : Option String
  deriving DecidableEq

/-- Namespace and name of a pod. -/
def podKey (ns name : String) : String := ns ++ "/" ++ name

def AnnotatedPod.key (pod : AnnotatedPod) : String := podKey pod.ns pod.name

/-- What polls ask for, and what a user does: create or annotate a pod. -/
inductive Op where
  | listPods (ns selector : String)
  | createCheckpoint (ns pod container node : String)
  | patchTrigger (ns pod : String)
  | setTrigger (pod : AnnotatedPod)

/-- The effect signature. -/
def sig : Signature where
  Op := Op
  Reply
    | .listPods _ _ => Except String (List AnnotatedPod)
    | .createCheckpoint _ _ _ _ => Except String String
    | .patchTrigger _ _ => Except String Unit
    | .setTrigger _ => Unit

/-- The `List` call of `getMatchingPods`. -/
def listPods (ns selector : String) : Prog sig (Except String (List AnnotatedPod)) :=
  .perform (S := sig) (Op.listPods ns selector)

/-- `at.creator.createCheckpoint`. -/
def createCheckpoint (ns pod container node : String) : Prog sig (Except String String) :=
  .perform (S := sig) (Op.createCheckpoint ns pod container node)

/-- `at.client.Patch` with a merge patch that removes the annotation. -/
def patchTrigger (ns pod : String) : Prog sig (Except String Unit) :=
  .perform (S := sig) (Op.patchTrigger ns pod)

/-- `getMatchingPods`: only running pods count. -/
def getMatchingPods (ns selector : String) : Prog sig (Except String (List AnnotatedPod)) := do
  match ← listPods ns selector with
  | .error e => return .error e
  | .ok pods => return .ok (pods.filter (fun pod => pod.running))

/-! ### The trigger -/

/-- The loop body over the containers: whether a checkpoint has failed. -/
def checkpointContainer (pod : AnnotatedPod) (failed : Bool) (container : String) :
    Prog sig Bool := do
  match ← createCheckpoint pod.ns pod.name container pod.nodeName with
  | .error _ => return true
  | .ok _ => return failed

/-- One pod of the loop in `run`. -/
def handlePod (spec : Spec) (pod : AnnotatedPod) : Prog sig Unit :=
  if pod.trigger ≠ some "true" then return ()
  else do
    let failed ← (filterContainers pod.toPodInfo spec.containerNames).foldlM
      (checkpointContainer pod) false
    -- the annotation is kept when a checkpoint failed
    if failed then return ()
    else do
      let _ ← patchTrigger pod.ns pod.name
      return ()

/-- `run`. -/
def run (spec : Spec) : Prog sig Unit := do
  match ← getMatchingPods spec.ns spec.selector with
  | .error _ => return ()
  | .ok pods => pods.forM (handlePod spec)

/-- A user that annotates a pod, or creates one with the annotation. -/
def annotate (pod : AnnotatedPod) : Prog sig Unit := .perform (S := sig) (Op.setTrigger pod)

/-! ### The stored pods -/

/-- What happens to a pod: its annotation is set, a container is checkpointed, or a trigger removes
    the annotation of the pod as it is stored. -/
inductive Happening where
  | set (key : String)
  | checkpointed (key container : String)
  | removed (key : String) (pod : AnnotatedPod)
  deriving DecidableEq

/-- The stored pods by their keys, and what has happened. -/
structure Cluster where
  pods : String → Option AnnotatedPod
  history : List Happening

/-- Something happens. -/
def Cluster.note (c : Cluster) (h : Happening) : Cluster := { c with history := c.history ++ [h] }

/-- The annotation is removed, if it is there. -/
def Cluster.clear (c : Cluster) (key : String) : Cluster :=
  match c.pods key with
  | some pod =>
    if pod.trigger = none then c
    else { pods := Function.update c.pods key (some { pod with trigger := none })
           history := c.history ++ [.removed key pod] }
  | none => c

/-- The pod is stored, with an annotation. -/
def Cluster.store (c : Cluster) (pod : AnnotatedPod) : Cluster where
  pods := Function.update c.pods pod.key (some pod)
  history := c.history ++ [.set pod.key]

section World
variable (selects : String → List (String × String) → Bool)

/-- `client.InNamespace` and the label selector. -/
def listed (ns selector : String) (pod : AnnotatedPod) : Bool :=
  (ns == "" || pod.ns == ns) && selects selector pod.labels

/-- The schedule matches the pod. -/
def Matches (spec : Spec) (pod : AnnotatedPod) : Prop :=
  listed selects spec.ns spec.selector pod = true ∧ pod.running = true

/-- What the operations do.  A list is one of the stored pods; a checkpoint may fail; a patch may
    fail with or without effect. -/
def clusterAct : (op : sig.Op) → Cluster → sig.Reply op → Cluster → Prop
  | .listPods ns selector, c, r, c' => c' = c ∧ match (r : Except String (List AnnotatedPod)) with
    | .ok pods => (pods.map AnnotatedPod.key).Nodup ∧ ∀ pod, pod ∈ pods ↔
        c.pods pod.key = some pod ∧ listed selects ns selector pod = true
    | .error _ => True
  | .createCheckpoint ns pod container _, c, r, c' =>
    c' = if (r : Except String String).isOk then c.note (.checkpointed (podKey ns pod) container)
      else c
  | .patchTrigger ns pod, c, r, c' => c' = c.clear (podKey ns pod) ∨
      (∃ e, (r : Except String Unit) = .error e) ∧ c' = c
  | .setTrigger pod, c, _, c' => pod.trigger ≠ none ∧ c' = c.store pod

/-- What everybody else does: pods come, change and go, but nobody else sets the annotation, and
    the containers of a pod stay. -/
def Changes (c c' : Cluster) : Prop :=
  c'.history = c.history ∧ ∀ key pod', c'.pods key = some pod' → pod'.trigger ≠ none →
    ∃ pod, c.pods key = some pod ∧ pod.trigger = pod'.trigger ∧ pod.containers = pod'.containers

/-- The polls of the schedules and the users. -/
def world (schedules : List Spec) : World sig Unit Cluster where
  act := clusterAct selects
  env := Changes
  start _ p := (∃ spec ∈ schedules, p = run spec) ∨ ∃ pod, p = annotate pod

end World

/-! ### What a poll does -/

/-- The matching pods that were listed. -/
def listing : Event sig → List AnnotatedPod
  | ⟨.listPods _ _, r⟩ => match (r : Except String (List AnnotatedPod)) with
    | .ok pods => pods.filter (fun pod => pod.running)
    | .error _ => []
  | _ => []

/-- The container a checkpoint has succeeded for. -/
def success : Event sig → Option (String × String)
  | ⟨.createCheckpoint ns pod container _, r⟩ =>
    if (r : Except String String).isOk then some (podKey ns pod, container) else none
  | _ => none

/-- A patch of the pod with the key. -/
def patches (key : String) : Event sig → Bool
  | ⟨.patchTrigger ns pod, _⟩ => podKey ns pod == key
  | _ => false

/-- The pods that the poll has listed. -/
def listedPods (tr : List (Event sig)) : List AnnotatedPod := tr.flatMap listing

/-- When a poll of the schedule may issue an operation, by its trace. -/
def Specified (spec : Spec) (tr : List (Event sig)) : sig.Op → Prop
  | .listPods _ _ => tr = []
  | .createCheckpoint _ _ _ _ => True
  | .patchTrigger ns name => ∃ pod ∈ listedPods tr, pod.ns = ns ∧ pod.name = name ∧
      pod.trigger = some "true" ∧ tr.any (patches pod.key) = false ∧
      ∀ container ∈ filterContainers pod.toPodInfo spec.containerNames,
        ∃ e ∈ tr, success e = some (pod.key, container)
  | .setTrigger _ => False

/-- Listed pods have distinct keys. -/
def Valid : Event sig → Prop
  | ⟨.listPods _ _, r⟩ => match (r : Except String (List AnnotatedPod)) with
    | .ok pods => (pods.map AnnotatedPod.key).Nodup
    | .error _ => True
  | _ => True

/-- The contract of a poll. -/
def pollContract (spec : Spec) : Contract sig (List (Event sig)) :=
  traceContract (Specified spec) Valid

/-- The trace has grown by checkpoints only. -/
def GrownBy (tr₀ tr : List (Event sig)) : Prop :=
  ∃ tr₁, tr = tr₀ ++ tr₁ ∧ ∀ e ∈ tr₁, listing e = [] ∧ ∀ key, patches key e = false

section Poll
variable {spec : Spec} {pod : AnnotatedPod} {tr tr₀ : List (Event sig)}

theorem GrownBy.refl : GrownBy tr tr := ⟨[], by simp, by simp⟩

theorem GrownBy.trans {tr₁ : List (Event sig)} (h : GrownBy tr₀ tr₁) (h' : GrownBy tr₁ tr) :
    GrownBy tr₀ tr := by
  obtain ⟨a, rfl, ha⟩ := h
  obtain ⟨b, rfl, hb⟩ := h'
  refine ⟨a ++ b, by simp, fun e he => ?_⟩
  rcases List.mem_append.mp he with he | he
  · exact ha e he
  · exact hb e he

theorem GrownBy.listedPods (h : GrownBy tr₀ tr) : listedPods tr = listedPods tr₀ := by
  obtain ⟨tr₁, rfl, hquiet⟩ := h
  have hnone : tr₁.flatMap listing = [] := List.flatMap_eq_nil_iff.mpr (fun e he => (hquiet e he).1)
  rw [OnDemand.listedPods, List.flatMap_append, hnone, List.append_nil]
  rfl

theorem GrownBy.patches (h : GrownBy tr₀ tr) (key : String) :
    tr.any (patches key) = tr₀.any (patches key) := by
  obtain ⟨tr₁, rfl, hquiet⟩ := h
  have hnone : tr₁.any (OnDemand.patches key) = false :=
    List.any_eq_false.mpr (fun e he => by simp [(hquiet e he).2 key])
  rw [List.any_append, hnone, Bool.or_false]

/-- One container: a checkpoint, and whether one has failed. -/
theorem checkpointContainer_spec (failed : Bool) (container : String) :
    wp (pollContract spec) (checkpointContainer pod failed container)
      (fun failed' tr => GrownBy tr₀ tr ∧ (∀ e ∈ tr₀, e ∈ tr) ∧ (failed' = false →
        failed = false ∧ ∃ e ∈ tr, success e = some (pod.key, container))) tr₀ := by
  unfold checkpointContainer
  rw [wp_bind]
  refine ⟨trivial, fun (r : Except String String) tr htr => ?_⟩
  obtain ⟨-, rfl⟩ := htr
  have hgrown : GrownBy tr₀ (tr₀ ++ [⟨Op.createCheckpoint pod.ns pod.name container pod.nodeName,
      r⟩]) := ⟨_, rfl, by simp [listing, patches]⟩
  have hkept : ∀ e ∈ tr₀, e ∈ tr₀ ++ [(⟨Op.createCheckpoint pod.ns pod.name container pod.nodeName,
      r⟩ : Event sig)] := fun e he => List.mem_append_left _ he
  cases r with
  | error e => exact ⟨hgrown, hkept, fun h => absurd h (by simp)⟩
  | ok path =>
    exact ⟨hgrown, hkept, fun h => ⟨h, _, List.mem_append_right _ (List.mem_singleton.mpr rfl),
      rfl⟩⟩

/-- The loop over the containers: without a failure, every container has been checkpointed. -/
theorem checkpointContainers_spec (containers : List String) (failed : Bool) :
    wp (pollContract spec) (containers.foldlM (checkpointContainer pod) failed)
      (fun failed' tr => GrownBy tr₀ tr ∧ (∀ e ∈ tr₀, e ∈ tr) ∧ (failed' = false →
        failed = false ∧ ∀ container ∈ containers,
          ∃ e ∈ tr, success e = some (pod.key, container))) tr₀ := by
  induction containers generalizing failed tr₀ with
  | nil => exact ⟨GrownBy.refl, fun e he => he, fun h => ⟨h, by simp⟩⟩
  | cons container rest ih =>
    rw [List.foldlM_cons, wp_bind]
    refine wp_mono (fun failed₁ tr₁ h₁ => ?_) (checkpointContainer_spec failed container)
    refine wp_mono (fun failed₂ tr₂ h₂ => ?_) (ih failed₁)
    obtain ⟨hgrown₁, hkept₁, hfirst⟩ := h₁
    obtain ⟨hgrown₂, hkept₂, hrest⟩ := h₂
    refine ⟨hgrown₁.trans hgrown₂, fun e he => hkept₂ e (hkept₁ e he), fun hnone => ?_⟩
    obtain ⟨hnone₁, hall⟩ := hrest hnone
    obtain ⟨hnone₀, e, he, hsuccess⟩ := hfirst hnone₁
    refine ⟨hnone₀, fun c hc => ?_⟩
    rcases List.mem_cons.mp hc with rfl | hc
    · exact ⟨e, hkept₂ e he, hsuccess⟩
    · exact hall c hc

/-- One pod: a patch only if every selected container has been checkpointed, and no other pod's. -/
theorem handlePod_spec (hpod : pod ∈ listedPods tr₀) (hfresh : tr₀.any (patches pod.key) = false) :
    wp (pollContract spec) (handlePod spec pod)
      (fun _ tr => listedPods tr = listedPods tr₀ ∧
        ∀ key, key ≠ pod.key → tr.any (patches key) = tr₀.any (patches key)) tr₀ := by
  unfold handlePod
  split
  · exact ⟨rfl, fun _ _ => rfl⟩
  · rename_i htrigger
    rw [not_not] at htrigger
    rw [wp_bind]
    refine wp_mono (fun failed tr₁ h₁ => ?_) (checkpointContainers_spec _ false)
    obtain ⟨hgrown, -, hall⟩ := h₁
    cases failed with
    -- a failed checkpoint leaves the annotation for the next poll
    | true => exact ⟨hgrown.listedPods, fun key _ => hgrown.patches key⟩
    | false =>
      rw [if_neg (by simp), wp_bind]
      refine ⟨⟨pod, hgrown.listedPods ▸ hpod, rfl, rfl, htrigger, ?_, (hall rfl).2⟩,
        fun r tr₂ htr₂ => ?_⟩
      · rw [hgrown.patches, hfresh]
      · obtain ⟨-, rfl⟩ := htr₂
        refine ⟨?_, fun key hne => ?_⟩
        · rw [listedPods, List.flatMap_append, ← hgrown.listedPods]
          simp [listing, listedPods]
        · rw [List.any_append, hgrown.patches]
          have hother : (podKey pod.ns pod.name == key) = false := by
            simpa using fun h => hne h.symm
          simp [patches, hother]

/-- **A poll is specified.**  It lists first, and removes the annotation of a listed pod that
    carries it, once, after it has checkpointed every selected container. -/
theorem run_specified (spec : Spec) :
    wp (pollContract spec) (run spec) (fun _ _ => True) [] := by
  unfold run getMatchingPods
  rw [wp_bind, wp_bind]
  refine ⟨rfl, fun (r : Except String (List AnnotatedPod)) tr htr => ?_⟩
  obtain ⟨hvalid, rfl⟩ := htr
  cases r with
  | error e => trivial
  | ok pods =>
    have hkeys : (pods.map AnnotatedPod.key).Nodup := hvalid
    -- the loop, for the pods that are left
    have hloop : ∀ (rest : List AnnotatedPod) (tr : List (Event sig)),
        (rest.map AnnotatedPod.key).Nodup → (∀ pod ∈ rest, pod ∈ listedPods tr) →
        (∀ pod ∈ rest, tr.any (patches pod.key) = false) →
        wp (pollContract spec) (rest.forM (handlePod spec)) (fun _ _ => True) tr := by
      intro rest
      induction rest with
      | nil => exact fun _ _ _ _ => trivial
      | cons pod rest ih =>
        intro tr hnodup hlisted hfresh
        rw [List.forM_eq_forM, List.forM_cons, wp_bind]
        refine wp_mono (fun _ tr₁ h₁ => ?_) (handlePod_spec (hlisted pod List.mem_cons_self)
          (hfresh pod List.mem_cons_self))
        rw [List.map_cons, List.nodup_cons] at hnodup
        refine ih tr₁ hnodup.2 (fun q hq => ?_) (fun q hq => ?_)
        · rw [h₁.1]
          exact hlisted q (List.mem_cons_of_mem pod hq)
        · rw [h₁.2 q.key (fun heq => hnodup.1 (heq ▸ List.mem_map_of_mem hq))]
          exact hfresh q (List.mem_cons_of_mem pod hq)
    refine hloop _ _ (hkeys.sublist (List.filter_sublist.map _)) (fun pod hpod => ?_)
      (fun pod _ => rfl)
    simpa [listedPods, listing] using hpod

end Poll

/-! ### Since the annotation was set -/

/-- What has happened since the pod's annotation was last set. -/
def sinceSet (key : String) (history : List Happening) : List Happening :=
  (history.reverse.takeWhile (fun h => h ≠ .set key)).reverse

theorem sinceSet_append {key : String} {history : List Happening} {h : Happening}
    (hne : h ≠ .set key) : sinceSet key (history ++ [h]) = sinceSet key history ++ [h] := by
  rw [sinceSet, List.reverse_append, List.reverse_singleton, List.singleton_append,
    List.takeWhile_cons_of_pos (by simpa using hne), List.reverse_cons]
  rfl

/-- The request is honoured: a container was checkpointed, and every container that a matching
    schedule selects was. -/
def Honoured (selects : String → List (String × String) → Bool) (schedules : List Spec)
    (past : List Happening) (key : String) (pod : AnnotatedPod) : Prop :=
  (∃ container, .checkpointed key container ∈ sinceSet key past) ∧
  ∀ spec ∈ schedules, Matches selects spec pod →
    ∀ container ∈ filterContainers pod.toPodInfo spec.containerNames,
      .checkpointed key container ∈ sinceSet key past

/-- Every removal of an annotation honoured the request. -/
def AllHonoured (selects : String → List (String × String) → Bool) (schedules : List Spec)
    (history : List Happening) : Prop :=
  ∀ past key pod rest, history = past ++ .removed key pod :: rest →
    Honoured selects schedules past key pod

/-- The poll has listed the pod with the annotation, and can still remove it. -/
def Pending (key : String) (t : Thread sig Unit) : Prop :=
  (∃ pod ∈ listedPods t.trace, pod.key = key ∧ pod.trigger = some "true") ∧
    t.trace.any (patches key) = false ∧ ∃ op k, t.prog = .call op k

/-- Thread `i` is a poll of the schedule. -/
def PollAt (b : Pool sig Unit Cluster) (i : ℕ) (spec : Spec) : Prop :=
  ∃ t, b.threads[i]? = some t ∧ Unfolds (run spec) t.trace t.prog

/-- The condition on a step.  A poll removes an annotation only if its schedule selects a container
    of the pod, and every container that a matching schedule selects; and the annotation is set
    only while no poll can still remove it. -/
def Careful (selects : String → List (String × String) → Bool) (schedules : List Spec)
    (b : Pool sig Unit Cluster) : Label sig Unit → Prop
  | .act i ⟨.patchTrigger ns name, _⟩ => ∀ pod, b.shared.pods (podKey ns name) = some pod →
      pod.trigger ≠ none → ∃ spec, PollAt b i spec ∧
        filterContainers pod.toPodInfo spec.containerNames ≠ [] ∧
        ∀ spec' ∈ schedules, Matches selects spec' pod →
          ∀ container ∈ filterContainers pod.toPodInfo spec'.containerNames,
            container ∈ filterContainers pod.toPodInfo spec.containerNames
  | .act _ ⟨.setTrigger pod, _⟩ => ∀ t ∈ b.threads, ¬ Pending pod.key t
  | _ => True

/-! ### The invariant of a poll -/

/-- What a thread knows of the cluster: it is a poll or a user, and what it has checkpointed of a
    pod that it can still patch counts, for the pod that is stored. -/
structure Knows (schedules : List Spec) (t : Thread sig Unit) (c : Cluster) : Prop where
  start : (∃ spec ∈ schedules, Unfolds (run spec) t.trace t.prog) ∨
    ∃ pod, Unfolds (annotate pod) t.trace t.prog
  valid : ∀ e ∈ t.trace, Valid e
  counted : ∀ key, Pending key t → ∀ e ∈ t.trace, ∀ container, success e = some (key, container) →
    .checkpointed key container ∈ sinceSet key c.history
  stored : ∀ key, Pending key t → ∀ pod ∈ listedPods t.trace, pod.key = key →
    ∀ pod', c.pods key = some pod' → pod'.trigger ≠ none → pod'.containers = pod.containers

variable {op : sig.Op} {tr : List (Event sig)}

section Invariant
variable {selects : String → List (String × String) → Bool} {schedules : List Spec}
  {t : Thread sig Unit} {c c' : Cluster}

/-- A change that keeps the history since the annotation was set, and the containers of annotated
    pods, is no concern of a thread. -/
theorem Knows.mono (h : Knows schedules t c)
    (hhistory : ∀ key x, Pending key t → x ∈ sinceSet key c.history → x ∈ sinceSet key c'.history)
    (hpods : ∀ key pod', Pending key t → c'.pods key = some pod' → pod'.trigger ≠ none →
      ∃ pod, c.pods key = some pod ∧ pod.trigger ≠ none ∧ pod.containers = pod'.containers) :
    Knows schedules t c' where
  start := h.start
  valid := h.valid
  counted key hp e he container hs := hhistory key _ hp (h.counted key hp e he container hs)
  stored key hp pod hpod hkey pod' hpod' htrigger := by
    obtain ⟨pod₀, hpod₀, htrigger₀, hcontainers⟩ := hpods key pod' hp hpod' htrigger
    rw [← hcontainers]
    exact h.stored key hp pod hpod hkey pod₀ hpod₀ htrigger₀

/-- A removal removes what is there. -/
theorem Cluster.clear_cases (c : Cluster) (key : String) :
    c.clear key = c ∨ ∃ pod, c.pods key = some pod ∧ pod.trigger ≠ none ∧
      c.clear key = { pods := Function.update c.pods key (some { pod with trigger := none })
                      history := c.history ++ [.removed key pod] } := by
  unfold Cluster.clear
  cases hpod : c.pods key with
  | none => exact Or.inl rfl
  | some pod =>
    dsimp only
    split_ifs with htrigger
    · exact Or.inl rfl
    · exact Or.inr ⟨pod, rfl, htrigger, rfl⟩

/-- A removal leaves no annotated pod that was not there. -/
theorem Knows.clear (h : Knows schedules t c) (key : String) : Knows schedules t (c.clear key) := by
  rcases c.clear_cases key with hsame | ⟨pod, -, -, heq⟩
  · rwa [hsame]
  · rw [heq]
    refine h.mono (fun key' x _ hx => ?_) (fun key' pod' _ hpod' htrigger => ?_)
    · dsimp only
      rw [sinceSet_append (by simp)]
      exact List.mem_append_left _ hx
    · dsimp only at hpod'
      by_cases hkey : key' = key
      · subst hkey
        rw [Function.update_self] at hpod'
        obtain rfl := Option.some.inj hpod'
        exact absurd rfl htrigger
      · rw [Function.update_of_ne hkey] at hpod'
        exact ⟨pod', hpod', htrigger, rfl⟩

/-- What a thread knows survives every step, but for an annotation that is set while the thread can
    still remove it. -/
theorem Knows.of_act {r : sig.Reply op} (h : Knows schedules t c)
    (hact : clusterAct selects op c r c')
    (hset : ∀ pod, op = .setTrigger pod → ¬ Pending pod.key t) : Knows schedules t c' := by
  cases op with
  | listPods ns selector =>
    obtain ⟨rfl, -⟩ := hact
    exact h
  | createCheckpoint ns name container node =>
    obtain rfl : c' = _ := hact
    split
    · refine h.mono (fun key x _ hx => ?_) (fun key pod' _ hpod' htrigger =>
        ⟨pod', hpod', htrigger, rfl⟩)
      rw [Cluster.note, sinceSet_append (by simp)]
      exact List.mem_append_left _ hx
    · exact h
  | patchTrigger ns name =>
    rcases hact with rfl | ⟨-, rfl⟩
    · exact h.clear _
    · exact h
  | setTrigger pod =>
    obtain ⟨-, rfl⟩ := hact
    -- the thread has a patch to make for other pods only
    have hother : ∀ key, Pending key t → pod.key ≠ key := fun key hp heq =>
      hset pod rfl (heq ▸ hp)
    refine h.mono (fun key x hp hx => ?_) (fun key pod' hp hpod' htrigger => ?_)
    · rw [Cluster.store, sinceSet_append (by simpa using hother key hp)]
      exact List.mem_append_left _ hx
    · dsimp only [Cluster.store] at hpod'
      rw [Function.update_of_ne (hother key hp).symm] at hpod'
      exact ⟨pod', hpod', htrigger, rfl⟩

/-- A step that lists nothing keeps a thread from patching more. -/
theorem Pending.of_step {key : String} {k : sig.Reply op → Prog sig Unit} {r : sig.Reply op}
    {p : Prog sig Unit} (h : Pending key ⟨tr ++ [⟨op, r⟩], p⟩) (hlisting : listing ⟨op, r⟩ = []) :
    Pending key ⟨tr, .call op k⟩ := by
  obtain ⟨⟨pod, hpod, hkey⟩, hfresh, -⟩ := h
  refine ⟨⟨pod, ?_, hkey⟩, ?_, op, k, rfl⟩
  · simpa [listedPods, hlisting] using hpod
  · rw [List.any_append, Bool.or_eq_false_iff] at hfresh
    exact hfresh.1

/-- What a thread knows after its own step, if the step lists nothing: what it knew, and the
    checkpoint it has just taken. -/
theorem Knows.step {k : sig.Reply op → Prog sig Unit} {r : sig.Reply op}
    (h : Knows schedules ⟨tr, .call op k⟩ c') (hlisting : listing ⟨op, r⟩ = [])
    (hvalid : Valid ⟨op, r⟩)
    (hsuccess : ∀ key container, success ⟨op, r⟩ = some (key, container) →
      .checkpointed key container ∈ sinceSet key c'.history) :
    Knows schedules ⟨tr ++ [⟨op, r⟩], k r⟩ c' where
  start := h.start.imp (fun ⟨spec, hspec, hu⟩ => ⟨spec, hspec, .snoc hu r⟩)
    (fun ⟨pod, hu⟩ => ⟨pod, .snoc hu r⟩)
  valid e he := by
    rcases List.mem_append.mp he with he | he
    · exact h.valid e he
    · obtain rfl := List.mem_singleton.mp he
      exact hvalid
  counted key hp e he container hs := by
    rcases List.mem_append.mp he with he | he
    · exact h.counted key (hp.of_step hlisting) e he container hs
    · obtain rfl := List.mem_singleton.mp he
      exact hsuccess key container hs
  stored key hp pod hpod hkey := by
    refine h.stored key (hp.of_step hlisting) pod ?_ hkey
    simpa [listedPods, hlisting] using hpod

/-- What a poll knows after it has listed the pods. -/
theorem Knows.list {ns selector : String} {k : Except String (List AnnotatedPod) → Prog sig Unit}
    {r : Except String (List AnnotatedPod)}
    (h : Knows schedules ⟨[], .call (Op.listPods ns selector) k⟩ c)
    (hact : clusterAct selects (Op.listPods ns selector) c r c') :
    Knows schedules ⟨[⟨Op.listPods ns selector, r⟩], k r⟩ c' := by
  obtain ⟨rfl, hlisted⟩ := hact
  refine ⟨h.start.imp (fun ⟨spec, hspec, hu⟩ => ⟨spec, hspec, .snoc hu r⟩)
    (fun ⟨pod, hu⟩ => ⟨pod, .snoc hu r⟩), fun e he => ?_, fun key _ e he container hs => ?_,
    fun key _ pod hpod hkey pod' hpod' _ => ?_⟩
  · obtain rfl := List.mem_singleton.mp he
    cases r with
    | error e => trivial
    | ok pods => exact hlisted.1
  · obtain rfl := List.mem_singleton.mp he
    exact absurd hs (by simp [success])
  · cases r with
    | error e => exact absurd hpod (by simp [listedPods, listing])
    | ok pods =>
      have hmem : pod ∈ pods ∧ pod.running = true := by
        simpa [listedPods, listing] using hpod
      have hstored := ((hlisted.2 pod).mp hmem.1).1
      rw [hkey] at hstored
      obtain rfl := Option.some.inj (hpod'.symm.trans hstored)
      rfl

/-- A user's trace lists nothing. -/
theorem listing_of_annotate {pod : AnnotatedPod} {p : Prog sig Unit}
    (h : Unfolds (annotate pod) tr p) :
    (tr = [] ∧ p = annotate pod) ∨ (listedPods tr = [] ∧ ∃ u, p = .pure u) := by
  induction h with
  | nil => exact Or.inl ⟨rfl, rfl⟩
  | @snoc tr op k _ r ih =>
    rcases ih with ⟨rfl, hprog⟩ | ⟨-, u, hprog⟩
    · obtain ⟨rfl, hk⟩ := Prog.call.inj hprog
      obtain rfl := eq_of_heq hk
      exact Or.inr ⟨rfl, r, rfl⟩
    · exact absurd hprog (by simp)

/-- A poll that removes an annotation honours the request. -/
theorem honoured_of_patch {ns name : String} {b : Pool sig Unit Cluster} {i : ℕ}
    {k : Except String Unit → Prog sig Unit} {r : Except String Unit}
    (hi : b.threads[i]? = some ⟨tr, .call (Op.patchTrigger ns name) k⟩)
    (hknows : Knows schedules ⟨tr, .call (Op.patchTrigger ns name) k⟩ b.shared)
    (hok : Careful selects schedules b (.act i ⟨Op.patchTrigger ns name, r⟩))
    {pod' : AnnotatedPod} (hpod' : b.shared.pods (podKey ns name) = some pod')
    (htrigger' : pod'.trigger ≠ none) :
    Honoured selects schedules b.shared.history (podKey ns name) pod' := by
  obtain ⟨spec, ⟨t, ht, hu⟩, hne, hcover⟩ := hok pod' hpod' htrigger'
  obtain rfl := Option.some.inj (hi.symm.trans ht)
  obtain ⟨pod, hpod, rfl, rfl, htrigger, hfresh, hall⟩ :=
    pre_of_unfolds (run_specified spec) hu hknows.valid
  have hpending : Pending pod.key ⟨tr, .call (Op.patchTrigger pod.ns pod.name) k⟩ :=
    ⟨⟨pod, hpod, rfl, htrigger⟩, hfresh, _, _, rfl⟩
  -- the stored pod has the containers of the listed one, and all selected ones count
  have hcontainers := hknows.stored pod.key hpending pod hpod rfl pod' hpod' htrigger'
  have hselected : filterContainers pod'.toPodInfo spec.containerNames =
      filterContainers pod.toPodInfo spec.containerNames := by
    unfold filterContainers
    rw [hcontainers]
  have hcounted : ∀ container ∈ filterContainers pod'.toPodInfo spec.containerNames,
      .checkpointed pod.key container ∈ sinceSet pod.key b.shared.history := by
    intro container hcontainer
    rw [hselected] at hcontainer
    obtain ⟨e, he, hs⟩ := hall container hcontainer
    exact hknows.counted pod.key hpending e he container hs
  obtain ⟨container, rest, hcons⟩ := List.exists_cons_of_ne_nil hne
  exact ⟨⟨container, hcounted container (by rw [hcons]; exact List.mem_cons_self)⟩,
    fun spec' hspec' hmatches c hc => hcounted c (hcover spec' hspec' hmatches c hc)⟩

/-- Only a removal adds to the removals. -/
theorem allHonoured_append {history : List Happening} {h : Happening}
    (hall : AllHonoured selects schedules history)
    (hlast : ∀ key pod, h = .removed key pod → Honoured selects schedules history key pod) :
    AllHonoured selects schedules (history ++ [h]) := by
  intro past key pod rest heq
  rcases List.eq_nil_or_concat rest with rfl | ⟨init, last, rfl⟩
  · obtain ⟨rfl, hh⟩ := List.append_inj' heq rfl
    exact hlast key pod (List.cons.inj hh).1
  · rw [List.concat_eq_append, ← List.cons_append, ← List.append_assoc] at heq
    obtain ⟨rfl, -⟩ := List.append_inj' heq rfl
    exact hall past key pod init rfl

/-- One step of a thread. -/
theorem honoured_act {b : Pool sig Unit Cluster} {i : ℕ} {k : sig.Reply op → Prog sig Unit}
    {r : sig.Reply op} (hall : AllHonoured selects schedules b.shared.history)
    (hknows : ∀ t ∈ b.threads, Knows schedules t b.shared)
    (hi : b.threads[i]? = some ⟨tr, .call op k⟩)
    (hok : Careful selects schedules b (.act i ⟨op, r⟩))
    (hact : clusterAct selects op b.shared r c') :
    AllHonoured selects schedules c'.history ∧ Knows schedules ⟨tr ++ [⟨op, r⟩], k r⟩ c' ∧
      ∀ j u, j ≠ i → b.threads[j]? = some u → Knows schedules u c' := by
  have hself := hknows _ (List.mem_of_getElem? hi)
  have hothers : (∀ pod, op = .setTrigger pod → ∀ t ∈ b.threads, ¬ Pending pod.key t) →
      ∀ u ∈ b.threads, Knows schedules u c' := fun hset u hu =>
    (hknows u hu).of_act hact (fun pod hop => hset pod hop u hu)
  cases op with
  | listPods ns selector =>
    have hempty : tr = [] := by
      rcases hself.start with ⟨spec, -, hu⟩ | ⟨pod, hu⟩
      · exact pre_of_unfolds (run_specified spec) hu hself.valid
      · rcases listing_of_annotate hu with ⟨rfl, -⟩ | ⟨-, u, hprog⟩
        · rfl
        · exact absurd hprog (by simp)
    subst hempty
    refine ⟨hact.1 ▸ hall, hself.list hact, fun j u _ hu => ?_⟩
    exact hothers (fun pod hop => absurd hop (by simp)) u (List.mem_of_getElem? hu)
  | createCheckpoint ns name container node =>
    have hkeep := hothers (fun pod hop => absurd hop (by simp))
    refine ⟨?_, (hkeep _ (List.mem_of_getElem? hi)).step rfl trivial (fun key c hs => ?_),
      fun j u _ hu => hkeep u (List.mem_of_getElem? hu)⟩
    · obtain rfl : c' = _ := hact
      split
      · exact allHonoured_append hall (fun key pod heq => absurd heq (by simp))
      · exact hall
    · -- the checkpoint is the last thing that has happened
      obtain rfl : c' = _ := hact
      have hs' : (if Except.isOk (r : Except String String) = true then
          some (podKey ns name, container) else none) = some (key, c) := hs
      split_ifs at hs' with hr
      obtain ⟨rfl, rfl⟩ := Prod.mk.inj (Option.some.inj hs')
      rw [if_pos hr, Cluster.note, sinceSet_append (by simp)]
      exact List.mem_append_right _ (List.mem_singleton.mpr rfl)
  | patchTrigger ns name =>
    have hkeep := hothers (fun pod hop => absurd hop (by simp))
    refine ⟨?_, (hkeep _ (List.mem_of_getElem? hi)).step rfl trivial
      (fun key c hs => absurd hs (by simp [success])),
      fun j u _ hu => hkeep u (List.mem_of_getElem? hu)⟩
    rcases hact with rfl | ⟨-, rfl⟩
    · rcases b.shared.clear_cases (podKey ns name) with hsame | ⟨pod', hpod', htrigger', heq⟩
      · rwa [hsame]
      · rw [heq]
        refine allHonoured_append hall (fun key pod hlast => ?_)
        obtain ⟨rfl, rfl⟩ := Happening.removed.inj hlast
        exact honoured_of_patch hi hself hok hpod' htrigger'
    · exact hall
  | setTrigger pod =>
    have hkeep := hothers (fun pod' hop => (Op.setTrigger.inj hop) ▸ hok)
    refine ⟨?_, (hkeep _ (List.mem_of_getElem? hi)).step rfl trivial
      (fun key c hs => absurd hs (by simp [success])),
      fun j u _ hu => hkeep u (List.mem_of_getElem? hu)⟩
    obtain ⟨-, rfl⟩ := hact
    exact allHonoured_append hall (fun key pod heq => absurd heq (by simp))

end Invariant

/-- **No request is silently consumed.**  However polls and users interleave, every removal of the
    annotation honours the request: since the annotation was last set, a container of the pod was
    checkpointed, and every container that a matching schedule selects. -/
theorem removal_honours_request (selects : String → List (String × String) → Bool)
    (schedules : List Spec) (pods : String → Option AnnotatedPod) {b : Pool sig Unit Cluster}
    (h : Reaches (world selects schedules) (Careful selects schedules) ⟨⟨pods, []⟩, []⟩ b) :
    AllHonoured selects schedules b.shared.history := by
  refine (h.modular (I := fun c => AllHonoured selects schedules c.history)
    (A := Knows schedules) ?_ ?_ ?_ ?_ ?_).1
  · intro past key pod rest heq
    exact absurd heq (by simp)
  · intro t ht
    exact absurd ht List.not_mem_nil
  · intro b p _ hstart
    refine ⟨hstart.imp ?_ ?_, fun e he => absurd he List.not_mem_nil,
      fun key _ e he => absurd he List.not_mem_nil,
      fun key _ pod hpod => absurd hpod List.not_mem_nil⟩
    · rintro ⟨spec, hspec, rfl⟩
      exact ⟨spec, hspec, .nil _⟩
    · rintro ⟨pod, rfl⟩
      exact ⟨pod, .nil _⟩
  · intro b i tr op k r s' hall hknows hi hok hact
    exact honoured_act hall hknows hi hok hact
  · rintro c c' hall ⟨hhistory, hpods⟩
    refine ⟨hhistory.symm ▸ hall, fun t ht => ht.mono (fun key x _ hx => hhistory.symm ▸ hx) ?_⟩
    intro key pod' _ hpod' htrigger
    obtain ⟨pod, hpod, heq, hcontainers⟩ := hpods key pod' hpod' htrigger
    exact ⟨pod, hpod, heq ▸ htrigger, hcontainers⟩

/-! ### Runs -/

/-- A pod with the annotation. -/
def webPod : AnnotatedPod where
  name := "web-0"
  running := true
  containers := ["app", "proxy"]
  nodeName := "node-a"
  ns := "apps"
  labels := []
  trigger := some "true"

/-- Only this pod is stored. -/
def webPods (key : String) : Option AnnotatedPod := if key = webPod.key then some webPod else none

/-- Everything is selected. -/
def anyLabels (_ : String) (_ : List (String × String)) : Bool := true

/-- A schedule for the pod with the container names. -/
def webSpec (containerNames : List String) : Spec where
  ns := "apps"
  selector := "app=web"
  containerNames := containerNames
  triggers := {
    interval := none
    resourceThreshold := none
    onKubernetesEvents := []
    onAnnotation := true }

theorem webPods_listed (history : List Happening) :
    clusterAct anyLabels (Op.listPods "apps" "app=web") ⟨webPods, history⟩ (Except.ok [webPod])
      ⟨webPods, history⟩ := by
  refine ⟨rfl, by simp, fun pod => ?_⟩
  rw [List.mem_singleton]
  constructor
  · rintro rfl
    exact ⟨by simp [webPods], by decide⟩
  · rintro ⟨hstored, -⟩
    simp only [webPods] at hstored
    split_ifs at hstored
    exact (Option.some.inj hstored).symm

/-- What the poll does for the pod, once it is listed. -/
def webRest (names : List String) : Prog sig Unit :=
  handlePod (webSpec names) webPod >>= fun _ => pure ()

/-- The listing. -/
def webListing : Event sig := ⟨Op.listPods "apps" "app=web", Except.ok [webPod]⟩

/-- A successful checkpoint. -/
def webCheckpoint (container : String) : Event sig :=
  ⟨Op.createCheckpoint "apps" "web-0" container "node-a", Except.ok container⟩

/-- A poll of the schedule has listed the pod. -/
theorem reaches_listed (ok : Pool sig Unit Cluster → Label sig Unit → Prop)
    (schedules : List Spec) (names : List String) (hspec : webSpec names ∈ schedules)
    (hspawn : ∀ b p, ok b (.spawn p)) (hlist : ∀ b, ok b (.act 0 webListing)) :
    Reaches (world anyLabels schedules) ok ⟨⟨webPods, []⟩, []⟩
      ⟨⟨webPods, []⟩, [⟨[webListing], webRest names⟩]⟩ := by
  have hempty : Reaches (world anyLabels schedules) ok ⟨⟨webPods, []⟩, []⟩ ⟨⟨webPods, []⟩, []⟩ :=
    .refl
  have hstarted := hempty.step (hspawn _ _) (.spawn (Or.inl ⟨_, hspec, rfl⟩))
  exact hstarted.act 0 webListing rfl rfl (hlist _) (webPods_listed [])

/-- The patch. -/
def webPatch : Event sig := ⟨Op.patchTrigger "apps" "web-0", Except.ok ()⟩

/-- The rule at work: one schedule that selects all containers. -/
theorem removal_honours_request_alone :
    ∃ b : Pool sig Unit Cluster, AllHonoured anyLabels [webSpec []] b.shared.history ∧
      b.shared.history = [.checkpointed webPod.key "app", .checkpointed webPod.key "proxy",
        .removed webPod.key webPod] := by
  have hlisted := reaches_listed (Careful anyLabels [webSpec []]) [webSpec []] []
    (List.mem_singleton.mpr rfl) (fun _ _ => trivial) (fun _ => trivial)
  have happ := hlisted.act 0 (webCheckpoint "app") rfl rfl trivial rfl
  have hproxy := happ.act 0 (webCheckpoint "proxy") rfl rfl trivial rfl
  have hpatched := hproxy.act 0 webPatch rfl rfl ?_ (Or.inl rfl)
  · exact ⟨_, removal_honours_request _ _ _ hpatched, by decide⟩
  · intro pod hpod _
    obtain rfl : webPod = pod := Option.some.inj hpod
    refine ⟨webSpec [], ⟨_, rfl, ?_⟩, by decide, fun spec' hspec' _ container hc => ?_⟩
    · exact .cons (.cons (.cons (.nil _)))
    · obtain rfl := List.mem_singleton.mp hspec'
      exact hc

/-- Some run of the schedules' polls consumes a request. -/
def Consumed (selects : String → List (String × String) → Bool) (schedules : List Spec) : Prop :=
  ∃ (pods : String → Option AnnotatedPod) (b : Pool sig Unit Cluster),
    Reaches (world selects schedules) (fun _ _ => True) ⟨⟨pods, []⟩, []⟩ b ∧
    ¬ AllHonoured selects schedules b.shared.history

/-- Requests are consumed: a schedule that names no container of the pod removes the annotation at
    once; of two schedules the first one to finish removes it for both; and a request that is made
    during a poll is removed by that poll. -/
theorem requests_consumed :
    Consumed anyLabels [webSpec ["missing"]] ∧
    Consumed anyLabels [webSpec ["app"], webSpec ["proxy"]] ∧
    Consumed anyLabels [webSpec ["app"]] := by
  refine ⟨⟨webPods, ?_⟩, ⟨webPods, ?_⟩, ⟨webPods, ?_⟩⟩
  -- no container is selected, so the poll patches right after listing
  · have hlisted := reaches_listed (fun _ _ => True) [webSpec ["missing"]] ["missing"]
      (List.mem_singleton.mpr rfl) (fun _ _ => trivial) (fun _ => trivial)
    have hpatched := hlisted.act 0 webPatch rfl rfl trivial (Or.inl rfl)
    refine ⟨_, hpatched, fun h => ?_⟩
    obtain ⟨⟨container, hc⟩, -⟩ := h [] webPod.key webPod [] (by decide)
    exact absurd hc List.not_mem_nil
  -- the first schedule is done with its container and patches; the other has not listed yet
  · have hlisted := reaches_listed (fun _ _ => True) [webSpec ["app"], webSpec ["proxy"]] ["app"]
      List.mem_cons_self (fun _ _ => trivial) (fun _ => trivial)
    have happ := hlisted.act 0 (webCheckpoint "app") rfl rfl trivial rfl
    have hpatched := happ.act 0 webPatch rfl rfl trivial (Or.inl rfl)
    refine ⟨_, hpatched, fun h => ?_⟩
    obtain ⟨-, hall⟩ := h [.checkpointed webPod.key "app"] webPod.key webPod [] (by decide)
    have hproxy := hall (webSpec ["proxy"]) (by simp) ⟨rfl, rfl⟩ "proxy" (by decide)
    exact absurd hproxy (by decide)
  -- the annotation is set anew between the checkpoint and the patch
  · have hlisted := reaches_listed (fun _ _ => True) [webSpec ["app"]] ["app"]
      (List.mem_singleton.mpr rfl) (fun _ _ => trivial) (fun _ => trivial)
    have happ := hlisted.act 0 (webCheckpoint "app") rfl rfl trivial rfl
    have huser := happ.step trivial (.spawn (Or.inr ⟨webPod, rfl⟩))
    have hset := huser.act 1 ⟨Op.setTrigger webPod, ()⟩ rfl rfl trivial ⟨by decide, rfl⟩
    have hpatched := hset.act 0 webPatch rfl rfl trivial (Or.inl rfl)
    refine ⟨_, hpatched, fun h => ?_⟩
    obtain ⟨⟨container, hc⟩, -⟩ := h [.checkpointed webPod.key "app", .set webPod.key]
      webPod.key webPod [] (by decide)
    exact absurd hc (by simp [sinceSet])

end CheckpointRestore.Schedule.OnDemand
