import CheckpointRestore.Schedule.EventTrigger

namespace CheckpointRestore.Schedule

open Interaction
open Forensic (filterContainers)

/-!
# What a poll of the `EventTrigger` does

The parts of a poll one by one, from the containers of a pod to the whole program: what each of
them does to the memory, and whom it calls.

* `NodeHandled`, `runs_handleNodeDrain` — the nodes that drain;
* `PodHandled`, `runs_handlePods` — the pods that are evicted or preempted;
* `Polled`, `run_polled` — the poll, by its trace; no other module takes the program apart.
-/

/-! ### What the parts of a poll do -/

section Parts
variable {et et' : EventTrigger} {tr : List (Event sig)} {pod : Pod} {pods : List Pod}
  {reason : String}

/-- One container: whether its checkpoint succeeded, and all before it. -/
theorem runs_checkpointContainer {ok ok' : Bool} {container : String}
    (h : Runs pollAct (EventTrigger.checkpointContainer reason pod ok container) () tr ok' ()) :
    ∃ e : Event sig, tr = [e] ∧ e.op = checkpointOp reason pod container ∧
      ok' = (ok && succeeded e) := by
  obtain ⟨r, tr₂, ⟨⟩, rfl, -, hreply⟩ := h.of_call
  cases r with
  | error e =>
    obtain ⟨rfl, rfl, -⟩ := Runs.of_pure hreply
    exact ⟨_, rfl, rfl, by simp [succeeded, Except.isOk, Except.toBool]⟩
  | ok path =>
    obtain ⟨rfl, rfl, -⟩ := Runs.of_pure hreply
    exact ⟨_, rfl, rfl, by simp [succeeded, Except.isOk, Except.toBool]⟩

/-- The loop over the containers. -/
theorem runs_checkpointPodContainers {ok : Bool}
    (h : Runs pollAct (et.checkpointPodContainers pod reason) () tr ok ()) :
    tr.map Event.op = et.calls reason pod ∧ ok = tr.all succeeded := by
  -- in general, for whatever the containers before have left
  suffices hloop : ∀ (containers : List String) (acc : Bool) (tr : List (Event sig)),
      Runs pollAct (containers.foldlM (EventTrigger.checkpointContainer reason pod) acc) () tr ok
        () →
      tr.map Event.op = containers.map (checkpointOp reason pod) ∧
        ok = (acc && tr.all succeeded) by
    simpa [EventTrigger.calls] using hloop _ true tr h
  intro containers
  induction containers with
  | nil =>
    intro acc tr h
    obtain ⟨rfl, rfl, -⟩ := Runs.of_pure h
    simp
  | cons container rest ih =>
    intro acc tr h
    rw [List.foldlM_cons] at h
    obtain ⟨tr₁, tr₂, acc', ⟨⟩, rfl, hfirst, hrest⟩ := Runs.of_bind h
    obtain ⟨e, rfl, hop, rfl⟩ := runs_checkpointContainer hfirst
    obtain ⟨hops, rfl⟩ := ih _ tr₂ hrest
    exact ⟨by simp [hop, hops], by simp [Bool.and_assoc]⟩

/-- The pods of a drained node. -/
theorem runs_drainNode {nodeName : String} {fired allOK : Bool}
    (h : Runs pollAct (et.drainNode pods nodeName) () tr (fired, allOK) ()) :
    tr.map Event.op = (pods.filter (fun pod => pod.nodeName = nodeName)).flatMap
        (et.calls "node drain") ∧
      fired = pods.any (fun pod => pod.nodeName = nodeName) ∧ allOK = tr.all succeeded := by
  -- the loop starts with any flags: `fired` collects by or, `allOK` by and
  suffices hloop : ∀ (pods : List Pod) (flags : Bool × Bool) (tr : List (Event sig)),
      Runs pollAct (pods.foldlM (et.drainPod nodeName) flags) () tr (fired, allOK) () →
      tr.map Event.op = (pods.filter (fun pod => pod.nodeName = nodeName)).flatMap
          (et.calls "node drain") ∧
        fired = (flags.1 || pods.any (fun pod => pod.nodeName = nodeName)) ∧
        allOK = (flags.2 && tr.all succeeded) by
    simpa using hloop pods (false, true) tr h
  intro pods
  induction pods with
  | nil =>
    intro flags tr h
    obtain ⟨rfl, hflags, -⟩ := Runs.of_pure h
    simp [← hflags]
  | cons pod rest ih =>
    intro flags tr h
    rw [List.foldlM_cons] at h
    obtain ⟨tr₁, tr₂, flags', ⟨⟩, rfl, hfirst, hrest⟩ := Runs.of_bind h
    obtain ⟨hops, hfired, hall⟩ := ih _ tr₂ hrest
    unfold EventTrigger.drainPod at hfirst
    by_cases hnode : pod.nodeName = nodeName
    · rw [if_neg (not_not.mpr hnode)] at hfirst
      obtain ⟨tr₃, tr₄, ok, ⟨⟩, rfl, hcontainers, hflags⟩ := Runs.of_bind hfirst
      obtain ⟨rfl, rfl, -⟩ := Runs.of_pure hflags
      obtain ⟨hops', rfl⟩ := runs_checkpointPodContainers hcontainers
      rw [List.filter_cons_of_pos (by simpa using hnode), List.flatMap_cons, ← hops', ← hops]
      exact ⟨by simp, by simp [hfired, hnode], by simp [hall, Bool.and_assoc]⟩
    · rw [if_pos hnode] at hfirst
      obtain ⟨rfl, rfl, -⟩ := Runs.of_pure hfirst
      rw [List.filter_cons_of_neg (by simpa using hnode)]
      exact ⟨hops, by simp [hfired, hnode], hall⟩

/-- One node of the loop: nothing if it was seen, and otherwise its pods; it is seen afterwards if
    every checkpoint succeeded. -/
theorem runs_handleNode {nodeName : String}
    (h : Runs pollAct (EventTrigger.handleNode pods et nodeName) () tr et' ()) :
    (nodeName ∈ et.seenNodes → tr = [] ∧ et' = et) ∧
    (nodeName ∉ et.seenNodes →
      tr.map Event.op = (pods.filter (fun pod => pod.nodeName = nodeName)).flatMap
          (et.calls "node drain") ∧
        et' = if pods.any (fun pod => pod.nodeName = nodeName) && tr.all succeeded then
            { et with seenNodes := et.seenNodes ++ [nodeName] } else et) := by
  unfold EventTrigger.handleNode at h
  refine ⟨fun hseen => ?_, fun hseen => ?_⟩
  · rw [if_pos (by simpa using hseen)] at h
    obtain ⟨rfl, rfl, -⟩ := Runs.of_pure h
    exact ⟨rfl, rfl⟩
  · rw [if_neg (by simpa using hseen)] at h
    obtain ⟨tr₁, tr₂, ⟨fired, allOK⟩, ⟨⟩, rfl, hpods, hmark⟩ := Runs.of_bind h
    obtain ⟨hops, rfl, rfl⟩ := runs_drainNode hpods
    dsimp only at hmark
    split at hmark
    · obtain ⟨rfl, rfl, -⟩ := Runs.of_pure hmark
      rename_i hdone
      rw [List.append_nil, if_pos hdone]
      exact ⟨hops, rfl⟩
    · obtain ⟨rfl, rfl, -⟩ := Runs.of_pure hmark
      rename_i hdone
      rw [List.append_nil, if_neg hdone]
      exact ⟨hops, rfl⟩

/-- `checkpointOnce`: nothing if the pod was seen, and otherwise its containers; it is seen
    afterwards if every checkpoint succeeded. -/
theorem runs_checkpointOnce {key : String}
    (h : Runs pollAct (et.checkpointOnce pod key reason) () tr et' ()) :
    (key ∈ et.seenPods → tr = [] ∧ et' = et) ∧
    (key ∉ et.seenPods → tr.map Event.op = et.calls reason pod ∧
      et' = if tr.all succeeded then { et with seenPods := et.seenPods ++ [key] } else et) := by
  unfold EventTrigger.checkpointOnce at h
  refine ⟨fun hseen => ?_, fun hseen => ?_⟩
  · rw [if_pos (by simpa using hseen)] at h
    obtain ⟨rfl, rfl, -⟩ := Runs.of_pure h
    exact ⟨rfl, rfl⟩
  · rw [if_neg (by simpa using hseen)] at h
    obtain ⟨tr₁, tr₂, ok, ⟨⟩, rfl, hcontainers, hmark⟩ := Runs.of_bind h
    obtain ⟨hops, rfl⟩ := runs_checkpointPodContainers hcontainers
    split at hmark
    · obtain ⟨rfl, rfl, -⟩ := Runs.of_pure hmark
      rename_i hdone
      rw [List.append_nil, if_pos hdone]
      exact ⟨hops, rfl⟩
    · obtain ⟨rfl, rfl, -⟩ := Runs.of_pure hmark
      rename_i hdone
      rw [List.append_nil, if_neg hdone]
      exact ⟨hops, rfl⟩

end Parts

/-! ### Whom a checkpoint is for -/

section Calls
variable {e : Event sig} {reason container : String} {pod : Pod}

theorem drainCall_of_op (h : e.op = checkpointOp reason pod container) (node : String) :
    drainCall node e = (reason == "node drain" && pod.nodeName == node) := by
  obtain ⟨op, r⟩ := e
  cases h
  rfl

theorem podCall_of_op (h : e.op = checkpointOp reason pod container) (key : String) :
    podCall key e = (reason != "node drain" && pod.key == key) := by
  obtain ⟨op, r⟩ := e
  cases h
  rfl

/-- The operations of a pod's checkpoints. -/
theorem mem_calls {et : EventTrigger} {op : sig.Op} (h : op ∈ et.calls reason pod) :
    ∃ container ∈ filterContainers pod.toPodInfo et.spec.containerNames,
      op = checkpointOp reason pod container := by
  obtain ⟨container, hcontainer, rfl⟩ := List.mem_map.mp h
  exact ⟨container, hcontainer, rfl⟩

end Calls

/-- A checkpoint for a drain. -/
def DrainOp (op : sig.Op) : Prop := ∃ pod container, op = checkpointOp "node drain" pod container

/-- A checkpoint for an eviction or a preemption. -/
def PodOp (op : sig.Op) : Prop :=
  ∃ reason pod container, reason ≠ "node drain" ∧ op = checkpointOp reason pod container

section Issues
variable (et : EventTrigger) (pod : Pod) (pods : List Pod)

theorem issues_checkpointPodContainers {P : sig.Op → Prop} (reason : String)
    (h : ∀ container, P (checkpointOp reason pod container)) :
    Issues P (et.checkpointPodContainers pod reason) := by
  refine Issues.foldlM (fun ok container => ?_) _
  refine Issues.bind (Issues.perform (h container)) (fun r => ?_)
  cases r with
  | error e => exact Issues.pure _
  | ok path => exact Issues.pure _

theorem issues_handleNode (nodeName : String) :
    Issues DrainOp (EventTrigger.handleNode pods et nodeName) := by
  unfold EventTrigger.handleNode
  split
  · exact Issues.pure _
  · refine Issues.bind (Issues.foldlM (fun flags pod => ?_) _) (fun flags => ?_)
    · unfold EventTrigger.drainPod
      split
      · exact Issues.pure _
      · exact Issues.bind (issues_checkpointPodContainers et pod _ (fun c => ⟨pod, c, rfl⟩))
          (fun ok => Issues.pure _)
    · obtain ⟨fired, allOK⟩ := flags
      dsimp only
      split <;> exact Issues.pure _

theorem issues_checkpointOnce {reason : String} (h : reason ≠ "node drain") (key : String) :
    Issues PodOp (et.checkpointOnce pod key reason) := by
  unfold EventTrigger.checkpointOnce
  split
  · exact Issues.pure _
  · refine Issues.bind (issues_checkpointPodContainers et pod _ (fun c => ⟨reason, pod, c, h, rfl⟩))
      (fun ok => ?_)
    split <;> exact Issues.pure _

theorem issues_handlePod : Issues PodOp (et.handlePod pod) := by
  refine Issues.bind ?_ (fun et' => ?_)
  · unfold EventTrigger.handleEviction
    split
    · exact issues_checkpointOnce et pod (by decide) pod.key
    · exact Issues.pure _
  · unfold EventTrigger.handlePreemption
    split
    · exact issues_checkpointOnce et' pod (by decide) pod.key
    · exact Issues.pure _

end Issues

/-- The selections of the other signal, and of anything but a checkpoint, are empty. -/
theorem filter_podCall_drain {tr : List (Event sig)} (h : ∀ e ∈ tr, DrainOp e.op) (key : String) :
    tr.filter (podCall key) = [] := by
  rw [List.filter_eq_nil_iff]
  intro e he
  obtain ⟨pod, container, hop⟩ := h e he
  rw [podCall_of_op hop]
  simp

theorem filter_drainCall_pod {tr : List (Event sig)} (h : ∀ e ∈ tr, PodOp e.op) (node : String) :
    tr.filter (drainCall node) = [] := by
  rw [List.filter_eq_nil_iff]
  intro e he
  obtain ⟨reason, pod, container, hne, hop⟩ := h e he
  rw [drainCall_of_op hop]
  simp [hne]

/-! ### What a poll does -/

/-- What a poll does about a node, by the checkpoints for its drain: nothing if it is not draining
    or was seen, and otherwise all its pods; it is seen afterwards if all of them succeeded. -/
structure NodeHandled (et et' : EventTrigger) (pods : List Pod) (draining : Prop) (node : String)
    (calls : List (Event sig)) : Prop where
  ended : ¬ draining → calls = [] ∧ node ∉ et'.seenNodes
  again : draining → node ∈ et.seenNodes → calls = [] ∧ node ∈ et'.seenNodes
  first : draining → node ∉ et.seenNodes →
    calls.map Event.op = (pods.filter (fun pod => pod.nodeName = node)).flatMap
        (et.calls "node drain") ∧
      (node ∈ et'.seenNodes ↔ ∀ e ∈ calls, succeeded e = true)

section Nodes
variable {et et' : EventTrigger} {tr : List (Event sig)} {pods : List Pod}

/-- The checkpoints for a drained node are for that node. -/
theorem filter_drainCall {nodeName : String}
    (hops : tr.map Event.op = (pods.filter (fun pod => pod.nodeName = nodeName)).flatMap
      (et.calls "node drain")) (node : String) :
    tr.filter (drainCall node) = if node = nodeName then tr else [] := by
  have hnode : ∀ e ∈ tr, drainCall node e = (nodeName == node) := by
    intro e he
    have hmem : e.op ∈ tr.map Event.op := List.mem_map_of_mem he
    rw [hops] at hmem
    obtain ⟨pod, hpod, hcall⟩ := List.mem_flatMap.mp hmem
    obtain ⟨container, -, hop⟩ := mem_calls hcall
    rw [drainCall_of_op hop]
    have hname : pod.nodeName = nodeName := by simpa using (List.mem_filter.mp hpod).2
    simp [hname]
  by_cases h : node = nodeName
  · rw [if_pos h, List.filter_eq_self]
    intro e he
    rw [hnode e he]
    simp [h]
  · rw [if_neg h, List.filter_eq_nil_iff]
    intro e he
    rw [hnode e he]
    simpa using fun heq => h heq.symm

/-- The loop over the draining nodes, which all host pods. -/
theorem runs_handleNodes {names : List String} (hnames : names.Nodup)
    (hhost : ∀ name ∈ names, pods.any (fun pod => pod.nodeName = name) = true)
    (h : Runs pollAct (names.foldlM (EventTrigger.handleNode pods) et) () tr et' ()) :
    et' = { et with seenNodes := et'.seenNodes } ∧
    ∀ node, (node ∉ names → tr.filter (drainCall node) = [] ∧
        (node ∈ et'.seenNodes ↔ node ∈ et.seenNodes)) ∧
      (node ∈ names → NodeHandled et et' pods True node (tr.filter (drainCall node))) := by
  have hround : ∀ (b : EventTrigger) (name : String) (s : Unit) (tr : List (Event sig))
      (b' : EventTrigger) (s' : Unit), b = { et with seenNodes := b.seenNodes } →
      Runs pollAct (EventTrigger.handleNode pods b name) s tr b' s' →
      b' = { et with seenNodes := b'.seenNodes } ∧ ∀ node, node ≠ id name →
        tr.filter (drainCall node) = [] ∧ (node ∈ b'.seenNodes ↔ node ∈ b.seenNodes) := by
    rintro b name ⟨⟩ tr b' ⟨⟩ hb hrun
    by_cases hseen : name ∈ b.seenNodes
    · obtain ⟨rfl, rfl⟩ := (runs_handleNode hrun).1 hseen
      exact ⟨hb, fun node _ => ⟨rfl, Iff.rfl⟩⟩
    · obtain ⟨hops, hb'⟩ := (runs_handleNode hrun).2 hseen
      refine ⟨?_, fun node (hne : node ≠ name) => ⟨?_, ?_⟩⟩
      · rw [hb', hb]
        split <;> rfl
      · rw [filter_drainCall hops, if_neg hne]
      · rw [hb']
        split
        · rw [List.mem_append, List.mem_singleton]
          exact or_iff_left hne
        · exact Iff.rfl
  -- no round but its own touches a node, so the loop is one round for each node
  obtain ⟨hconfig, hout, hin⟩ := Runs.of_foldlM_keyed id drainCall
    (fun b node => node ∈ b.seenNodes) (fun b => b = { et with seenNodes := b.seenNodes })
    hround (by simpa using hnames) h rfl
  refine ⟨hconfig, fun node => ⟨fun hnode => hout node (by simpa using hnode), fun hnode => ?_⟩⟩
  obtain ⟨b₀, ⟨⟩, tr₀, b₁, ⟨⟩, hb₀, hrun, hfilter, hmem₀, hmem₁⟩ := hin node hnode
  dsimp only [id] at hfilter hmem₀ hmem₁
  refine ⟨fun hnot => absurd trivial hnot, fun _ hseen => ?_, fun _ hseen => ?_⟩
  · obtain ⟨rfl, rfl⟩ := (runs_handleNode hrun).1 (hmem₀.mpr hseen)
    exact ⟨hfilter, hmem₁.mpr (hmem₀.mpr hseen)⟩
  · obtain ⟨hops, hb₁⟩ := (runs_handleNode hrun).2 (fun h => hseen (hmem₀.mp h))
    rw [hfilter, filter_drainCall hops, if_pos rfl, hmem₁, hb₁, hhost node hnode, Bool.true_and]
    refine ⟨?_, ?_⟩
    · rw [hops, hb₀]
      rfl
    · split
      · rename_i hall
        simpa using hall
      · rename_i hall
        rw [hmem₀]
        simpa [hseen] using hall

/-- Every draining node hosts a pod. -/
theorem any_of_mem_drainingNow {nodes : List Node} {name : String}
    (h : name ∈ drainingNow pods nodes) : pods.any (fun pod => pod.nodeName = name) = true := by
  unfold drainingNow at h
  rw [List.mem_dedup] at h
  obtain ⟨node, hnode, rfl⟩ := List.mem_map.mp h
  have hhost := (List.mem_filter.mp hnode).2
  rw [Bool.and_eq_true, List.any_eq_true] at hhost
  obtain ⟨pod, hpod, hname⟩ := hhost.2
  rw [Bool.and_eq_true] at hname
  exact List.any_eq_true.mpr ⟨pod, hpod, by simpa using hname.2⟩

/-- `handleNodeDrain`: without a list of the nodes nothing happens. -/
theorem runs_handleNodeDrain (h : Runs pollAct (et.handleNodeDrain pods) () tr et' ()) :
    et' = { et with seenNodes := et'.seenNodes } ∧ polledPods tr = none ∧
    (∀ key, tr.filter (podCall key) = []) ∧
    (polledNodes tr = none → et' = et ∧ ∀ node, tr.filter (drainCall node) = []) ∧
    ∀ nodes, polledNodes tr = some nodes → ∀ node,
      NodeHandled et et' pods (node ∈ drainingNow pods nodes) node
        (tr.filter (drainCall node)) := by
  obtain ⟨r, tr₂, ⟨⟩, rfl, -, hrest⟩ := h.of_call
  cases r with
  | error e =>
    obtain ⟨rfl, rfl, -⟩ := Runs.of_pure hrest
    exact ⟨rfl, rfl, fun _ => rfl, fun _ => ⟨rfl, fun _ => rfl⟩,
      fun nodes hnodes => absurd hnodes (by simp [polledNodes, nodeListing])⟩
  | ok nodes =>
    obtain ⟨(names : List String), tr₄, ⟨⟩, rfl, hperm, hloop⟩ := hrest.of_call
    have hdrain : ∀ e ∈ tr₄, DrainOp e.op :=
      (Issues.foldlM (fun b name => issues_handleNode b pods name) _).of_runs hloop
    have hnames : ∀ name, name ∈ names ↔ name ∈ drainingNow pods nodes :=
      fun name => List.Perm.mem_iff hperm
    obtain ⟨hconfig, hnode⟩ := runs_handleNodes (hperm.nodup_iff.mpr (List.nodup_dedup _))
      (fun name hname => any_of_mem_drainingNow ((hnames name).mp hname)) hloop
    -- the two listings say nothing about checkpoints
    have hfilter : ∀ (sel : Event sig → Bool) (e₁ e₂ : Event sig), sel e₁ = false →
        sel e₂ = false → ([e₁] ++ ([e₂] ++ tr₄)).filter sel = tr₄.filter sel := by
      intro sel e₁ e₂ h₁ h₂
      simp [h₁, h₂]
    refine ⟨?_, ?_, fun key => ?_, fun hnone => absurd hnone (by simp [polledNodes, nodeListing]),
      fun nodes' hnodes' node => ?_⟩
    · rw [hconfig]
    · have hpods : tr₄.findSome? podListing = none := by
        rw [List.findSome?_eq_none_iff]
        intro e he
        obtain ⟨pod, container, hop⟩ := hdrain e he
        obtain ⟨op, r⟩ := e
        cases hop
        rfl
      simpa [polledPods, podListing] using hpods
    · rw [hfilter (podCall key) _ _ rfl rfl, filter_podCall_drain hdrain]
    · obtain rfl : nodes' = nodes := (Option.some.inj hnodes').symm
      rw [hfilter (drainCall node) _ _ rfl rfl]
      refine ⟨fun hnot => ?_, fun hin hseen => ?_, fun hin hseen => ?_⟩
      · obtain ⟨hcalls, hseen⟩ := (hnode node).1 (fun hmem => hnot ((hnames node).mp hmem))
        refine ⟨hcalls, fun hmem => ?_⟩
        have hkept := (List.mem_filter.mp (hseen.mp hmem)).2
        exact hnot (by simpa using hkept)
      · exact ((hnode node).2 ((hnames node).mpr hin)).again trivial
          (List.mem_filter.mpr ⟨hseen, by simpa using hin⟩)
      · exact ((hnode node).2 ((hnames node).mpr hin)).first trivial
          (fun hmem => hseen (List.mem_filter.mp hmem).1)

end Nodes

/-- The eviction of the pod is a watched signal. -/
def EventTrigger.evictionDue (et : EventTrigger) (pod : Pod) : Bool :=
  et.watchPodEviction && pod.deletionTimestamp.isSome

/-- The preemption of the pod is a watched signal. -/
def EventTrigger.preemptionDue (et : EventTrigger) (pod : Pod) : Bool :=
  et.watchPreemption && podIsPreempted pod

/-- What a signal that is due or not does about a pod that was seen or not. -/
structure Signalled (et et' : EventTrigger) (due : Bool) (reason : String) (pod : Pod)
    (calls : List (Event sig)) : Prop where
  config : et' = { et with seenPods := et'.seenPods }
  others : ∀ key, key ≠ pod.key → (key ∈ et'.seenPods ↔ key ∈ et.seenPods)
  again : due = false ∨ pod.key ∈ et.seenPods → calls = [] ∧ et' = et
  first : due = true → pod.key ∉ et.seenPods → calls.map Event.op = et.calls reason pod ∧
    (pod.key ∈ et'.seenPods ↔ ∀ e ∈ calls, succeeded e = true)

/-- What a poll does about a pod, by the checkpoints for its eviction and then its preemption. -/
def PodHandled (et et' : EventTrigger) (pod : Pod) (calls : List (Event sig)) : Prop :=
  ∃ et₁ evicted preempted, calls = evicted ++ preempted ∧
    Signalled et et₁ (et.evictionDue pod) "pod eviction" pod evicted ∧
    Signalled et₁ et' (et.preemptionDue pod) "preemption" pod preempted

section Pods
variable {et et' : EventTrigger} {tr : List (Event sig)} {pod : Pod} {pods : List Pod}

/-- A signal that is handled by `checkpointOnce` if it is due. -/
theorem runs_signal {due : Bool} {reason : String}
    (h : Runs pollAct (if due = true then et.checkpointOnce pod pod.key reason else pure et) () tr
      et' ()) : Signalled et et' due reason pod tr := by
  cases due with
  | false =>
    obtain ⟨rfl, rfl, -⟩ := Runs.of_pure h
    exact ⟨rfl, fun _ _ => Iff.rfl, fun _ => ⟨rfl, rfl⟩, fun hdue => absurd hdue (by simp)⟩
  | true =>
    have hrun : Runs pollAct (et.checkpointOnce pod pod.key reason) () tr et' () := h
    by_cases hseen : pod.key ∈ et.seenPods
    · obtain ⟨rfl, rfl⟩ := (runs_checkpointOnce hrun).1 hseen
      exact ⟨rfl, fun _ _ => Iff.rfl, fun _ => ⟨rfl, rfl⟩, fun _ hnot => absurd hseen hnot⟩
    -- the pod is checkpointed, and remembered only if every checkpoint succeeded
    · obtain ⟨hops, rfl⟩ := (runs_checkpointOnce hrun).2 hseen
      refine ⟨?_, fun key hne => ?_, fun hor => ?_, fun _ _ => ⟨hops, ?_⟩⟩
      · split <;> rfl
      · split
        · rw [List.mem_append, List.mem_singleton]
          exact or_iff_left hne
        · exact Iff.rfl
      · rcases hor with hdue | hmem
        · exact absurd hdue (by simp)
        · exact absurd hmem hseen
      · split
        · rename_i hall
          simpa using hall
        · rename_i hall
          simpa [hseen] using hall

/-- The checkpoints of a signal are for the pod. -/
theorem Signalled.podCall {due : Bool} {reason : String} (h : Signalled et et' due reason pod tr)
    (hreason : reason ≠ "node drain") (key : String) :
    ∀ e ∈ tr, podCall key e = (pod.key == key) := by
  intro e he
  by_cases hdue : due = true ∧ pod.key ∉ et.seenPods
  · have hmem : e.op ∈ tr.map Event.op := List.mem_map_of_mem he
    rw [(h.first hdue.1 hdue.2).1] at hmem
    obtain ⟨container, -, hop⟩ := mem_calls hmem
    rw [podCall_of_op hop]
    simp [hreason]
  · have hnone := (h.again (by
      rw [not_and_or, not_not] at hdue
      exact hdue.imp (fun hne => by simpa using hne) id)).1
    rw [hnone] at he
    exact absurd he List.not_mem_nil

/-- One pod of the loop. -/
theorem runs_handlePod (h : Runs pollAct (et.handlePod pod) () tr et' ()) :
    PodHandled et et' pod tr := by
  obtain ⟨tr₁, tr₂, et₁, ⟨⟩, rfl, heviction, hpreemption⟩ := Runs.of_bind h
  have h₁ : Signalled et et₁ (et.evictionDue pod) "pod eviction" pod tr₁ := runs_signal heviction
  have h₂ : Signalled et₁ et' (et₁.preemptionDue pod) "preemption" pod tr₂ :=
    runs_signal hpreemption
  have hdue : et₁.preemptionDue pod = et.preemptionDue pod := by
    rw [h₁.config]
    rfl
  rw [hdue] at h₂
  exact ⟨et₁, tr₁, tr₂, rfl, h₁, h₂⟩

/-- What a pod's round says about other pods. -/
theorem PodHandled.others (h : PodHandled et et' pod tr) :
    et' = { et with seenPods := et'.seenPods } ∧ ∀ key, key ≠ pod.key →
      tr.filter (podCall key) = [] ∧ (key ∈ et'.seenPods ↔ key ∈ et.seenPods) := by
  obtain ⟨et₁, evicted, preempted, rfl, h₁, h₂⟩ := h
  refine ⟨?_, fun key hne => ⟨?_, (h₂.others key hne).trans (h₁.others key hne)⟩⟩
  · rw [h₂.config, h₁.config]
  · rw [List.filter_eq_nil_iff]
    intro e he
    have hcall : podCall key e = (pod.key == key) := by
      rcases List.mem_append.mp he with he | he
      · exact h₁.podCall (by decide) key e he
      · exact h₂.podCall (by decide) key e he
    rw [hcall]
    simpa using fun heq => hne heq.symm

/-- Its own checkpoints are all of them. -/
theorem PodHandled.filter_self (h : PodHandled et et' pod tr) :
    tr.filter (podCall pod.key) = tr := by
  obtain ⟨et₁, evicted, preempted, rfl, h₁, h₂⟩ := h
  rw [List.filter_eq_self]
  intro e he
  have hcall : podCall pod.key e = (pod.key == pod.key) := by
    rcases List.mem_append.mp he with he | he
    · exact h₁.podCall (by decide) pod.key e he
    · exact h₂.podCall (by decide) pod.key e he
  rw [hcall]
  simp

end Pods

/-- The eviction of a pod that was not seen is not due, or a checkpoint for it failed. -/
def Unevicted (et : EventTrigger) (pod : Pod) (evicted : List (Event sig)) : Prop :=
  et.evictionDue pod = false ∧ evicted = [] ∨
    et.evictionDue pod = true ∧ evicted.map Event.op = et.calls "pod eviction" pod ∧
      ∃ e ∈ evicted, succeeded e = false

/-- How a pod that was not seen is handled, by the checkpoints for its eviction and for its
    preemption, and whether it is seen afterwards. -/
inductive Signals (et : EventTrigger) (pod : Pod) (evicted preempted : List (Event sig))
    (seen : Prop) : Prop
  | evicted (hdue : et.evictionDue pod = true)
      (hops : evicted.map Event.op = et.calls "pod eviction" pod)
      (hall : ∀ e ∈ evicted, succeeded e = true) (hnone : preempted = []) (hseen : seen)
  | preempted (hu : Unevicted et pod evicted) (hdue : et.preemptionDue pod = true)
      (hops : preempted.map Event.op = et.calls "preemption" pod)
      (hseen : seen ↔ ∀ e ∈ preempted, succeeded e = true)
  | neither (hu : Unevicted et pod evicted) (hdue : et.preemptionDue pod = false)
      (hnone : preempted = []) (hseen : ¬ seen)

section Pods
variable {et et' : EventTrigger} {tr : List (Event sig)} {pod : Pod} {pods : List Pod}

/-- The signals do not depend on the memory. -/
theorem Signals.of_memory {seenNodes seenPods : List String} {evicted preempted : List (Event sig)}
    {seen : Prop} (h : Signals { et with seenNodes, seenPods } pod evicted preempted seen) :
    Signals et pod evicted preempted seen := by
  cases h with
  | evicted hdue hops hall hnone hseen => exact .evicted hdue hops hall hnone hseen
  | preempted hu hdue hops hseen => exact .preempted hu hdue hops hseen
  | neither hu hdue hnone hseen => exact .neither hu hdue hnone hseen

/-- A pod that was seen is left alone. -/
theorem PodHandled.again (h : PodHandled et et' pod tr) (hseen : pod.key ∈ et.seenPods) :
    tr = [] ∧ pod.key ∈ et'.seenPods := by
  obtain ⟨et₁, evicted, preempted, rfl, h₁, h₂⟩ := h
  obtain ⟨rfl, rfl⟩ := h₁.again (Or.inr hseen)
  obtain ⟨rfl, rfl⟩ := h₂.again (Or.inr hseen)
  exact ⟨rfl, hseen⟩

/-- A pod that was not seen is handled by its first signal, and by the second if a checkpoint for
    the first failed. -/
theorem PodHandled.first (h : PodHandled et et' pod tr) (hseen : pod.key ∉ et.seenPods) :
    ∃ evicted preempted, tr = evicted ++ preempted ∧
      Signals et pod evicted preempted (pod.key ∈ et'.seenPods) := by
  obtain ⟨et₁, evicted, preempted, rfl, h₁, h₂⟩ := h
  refine ⟨evicted, preempted, rfl, ?_⟩
  have hcalls : et₁.calls "preemption" pod = et.calls "preemption" pod := by
    rw [h₁.config]
    rfl
  -- the second signal, once the first has left the pod unseen
  have hsecond : Unevicted et pod evicted → pod.key ∉ et₁.seenPods →
      Signals et pod evicted preempted (pod.key ∈ et'.seenPods) := by
    intro hu hseen₁
    cases hdue : et.preemptionDue pod with
    | true =>
      obtain ⟨hops, hseen'⟩ := h₂.first hdue hseen₁
      exact .preempted hu hdue (hops.trans hcalls) hseen'
    | false =>
      obtain ⟨hnone, rfl⟩ := h₂.again (Or.inl hdue)
      exact .neither hu hdue hnone hseen₁
  cases hdue : et.evictionDue pod with
  | false =>
    obtain ⟨rfl, rfl⟩ := h₁.again (Or.inl hdue)
    exact hsecond (Or.inl ⟨hdue, rfl⟩) hseen
  | true =>
    obtain ⟨hops, hseen₁⟩ := h₁.first hdue hseen
    by_cases hall : ∀ e ∈ evicted, succeeded e = true
    · obtain ⟨hnone, rfl⟩ := h₂.again (Or.inr (hseen₁.mpr hall))
      exact .evicted hdue hops hall hnone (hseen₁.mpr hall)
    · refine hsecond (Or.inr ⟨hdue, hops, ?_⟩) (fun hmem => hall (hseen₁.mp hmem))
      push Not at hall
      obtain ⟨e, he, hne⟩ := hall
      exact ⟨e, he, by simpa using hne⟩

/-- What a poll does about a listed pod. -/
structure PodPolled (et et' : EventTrigger) (pod : Pod) (calls : List (Event sig)) : Prop where
  again : pod.key ∈ et.seenPods → calls = [] ∧ pod.key ∈ et'.seenPods
  first : pod.key ∉ et.seenPods → ∃ evicted preempted, calls = evicted ++ preempted ∧
    Signals et pod evicted preempted (pod.key ∈ et'.seenPods)

/-- The loop over the pods. -/
theorem runs_handlePods (hkeys : (pods.map Pod.key).Nodup)
    (h : Runs pollAct (pods.foldlM EventTrigger.handlePod et) () tr et' ()) :
    et' = { et with seenPods := et'.seenPods } ∧
    (∀ key, key ∉ pods.map Pod.key → tr.filter (podCall key) = [] ∧
      (key ∈ et'.seenPods ↔ key ∈ et.seenPods)) ∧
    ∀ pod ∈ pods, PodPolled et et' pod (tr.filter (podCall pod.key)) := by
  have hround : ∀ (b : EventTrigger) (pod : Pod) (s : Unit) (tr : List (Event sig))
      (b' : EventTrigger) (s' : Unit), b = { et with seenPods := b.seenPods } →
      Runs pollAct (b.handlePod pod) s tr b' s' →
      b' = { et with seenPods := b'.seenPods } ∧ ∀ key, key ≠ pod.key →
        tr.filter (podCall key) = [] ∧ (key ∈ b'.seenPods ↔ key ∈ b.seenPods) := by
    rintro b pod ⟨⟩ tr b' ⟨⟩ hb hrun
    obtain ⟨hconfig, hothers⟩ := (runs_handlePod hrun).others
    refine ⟨?_, hothers⟩
    rw [hconfig, hb]
  -- the keys of the listed pods differ, so the loop is one round for each pod
  obtain ⟨hconfig, hout, hin⟩ := Runs.of_foldlM_keyed Pod.key podCall
    (fun b key => key ∈ b.seenPods) (fun b => b = { et with seenPods := b.seenPods })
    hround hkeys h rfl
  refine ⟨hconfig, hout, fun pod hpod => ?_⟩
  obtain ⟨b₀, ⟨⟩, tr₀, b₁, ⟨⟩, hb₀, hrun, hfilter, hmem₀, hmem₁⟩ := hin pod hpod
  have hhandled := runs_handlePod hrun
  rw [hhandled.filter_self] at hfilter
  rw [hfilter]
  refine ⟨fun hseen => ?_, fun hseen => ?_⟩
  · obtain ⟨hnone, hseen'⟩ := hhandled.again (hmem₀.mpr hseen)
    exact ⟨hnone, hmem₁.mpr hseen'⟩
  · obtain ⟨evicted, preempted, heq, hsignals⟩ := hhandled.first (fun h => hseen (hmem₀.mp h))
    refine ⟨evicted, preempted, heq, ?_⟩
    rw [hb₀] at hsignals
    rw [hmem₁]
    exact hsignals.of_memory

end Pods

/-- A poll, by its trace: what it remembers of the schedule never changes, without a list of the
    pods it does nothing, and otherwise it handles the nodes, if drains are watched and the nodes
    were listed, and the pods. -/
structure Polled (et : EventTrigger) (tr : List (Event sig)) (et' : EventTrigger) : Prop where
  config : et' = { et with seenNodes := et'.seenNodes, seenPods := et'.seenPods }
  unlisted : polledPods tr = none → et' = et ∧ (∀ node, tr.filter (drainCall node) = []) ∧
    ∀ key, tr.filter (podCall key) = []
  valid : ∀ pods, polledPods tr = some pods → (pods.map Pod.key).Nodup ∧
    ∀ pod ∈ pods, pod.containers.Nodup
  undrained : polledNodes tr = none → et'.seenNodes = et.seenNodes ∧
    ∀ node, tr.filter (drainCall node) = []
  nodes : ∀ pods nodes, polledPods tr = some pods → polledNodes tr = some nodes →
    et.watchNodeDrain = true ∧ ∀ node, NodeHandled et et' pods (node ∈ drainingNow pods nodes) node
      (tr.filter (drainCall node))
  gone : ∀ pods key, polledPods tr = some pods → key ∉ pods.map Pod.key →
    tr.filter (podCall key) = [] ∧ key ∉ et'.seenPods
  pods : ∀ pods, polledPods tr = some pods → ∀ pod ∈ pods,
    PodPolled et et' pod (tr.filter (podCall pod.key))

section Run
variable {et et' : EventTrigger} {tr : List (Event sig)}

/-- `getMatchingPods` lists once. -/
theorem runs_getMatchingPods {ns selector : String} {r : Except String (List Pod)}
    (h : Runs pollAct (getMatchingPods ns selector) () tr r ()) :
    (∃ (msg : String) (e : Event sig), r = .error msg ∧ tr = [e] ∧ polledPods tr = none ∧
      polledNodes tr = none ∧
      (∀ node, drainCall node e = false) ∧ ∀ key, podCall key e = false) ∨
    ∃ (listed : List Pod) (e : Event sig), r = .ok (listed.filter (fun pod => pod.running)) ∧
      tr = [e] ∧
      podListing e = some (listed.filter (fun pod => pod.running)) ∧ nodeListing e = none ∧
      (∀ node, drainCall node e = false) ∧ (∀ key, podCall key e = false) ∧
      (listed.map Pod.key).Nodup ∧ ∀ pod ∈ listed, pod.containers.Nodup := by
  obtain ⟨r', tr₂, ⟨⟩, rfl, hvalid, hreply⟩ := h.of_call
  cases r' with
  | error msg =>
    obtain ⟨rfl, rfl, -⟩ := Runs.of_pure hreply
    exact Or.inl ⟨msg, _, rfl, rfl, rfl, rfl, fun _ => rfl, fun _ => rfl⟩
  | ok listed =>
    obtain ⟨rfl, rfl, -⟩ := Runs.of_pure hreply
    exact Or.inr ⟨listed, _, rfl, rfl, rfl, rfl, fun _ => rfl, fun _ => rfl, hvalid.1, hvalid.2⟩

/-- `handleDrains`: without a list of the nodes nothing happens. -/
theorem runs_handleDrains {pods : List Pod}
    (h : Runs pollAct (et.handleDrains pods) () tr et' ()) :
    et' = { et with seenNodes := et'.seenNodes } ∧ polledPods tr = none ∧
    (∀ key, tr.filter (podCall key) = []) ∧
    (polledNodes tr = none → et' = et ∧ ∀ node, tr.filter (drainCall node) = []) ∧
    ∀ nodes, polledNodes tr = some nodes → et.watchNodeDrain = true ∧ ∀ node,
      NodeHandled et et' pods (node ∈ drainingNow pods nodes) node
        (tr.filter (drainCall node)) := by
  unfold EventTrigger.handleDrains at h
  split at h
  · rename_i hwatch
    obtain ⟨hconfig, hpods, hcalls, hnone, hsome⟩ := runs_handleNodeDrain h
    exact ⟨hconfig, hpods, hcalls, hnone, fun nodes hnodes => ⟨hwatch, hsome nodes hnodes⟩⟩
  · obtain ⟨rfl, rfl, -⟩ := Runs.of_pure h
    exact ⟨rfl, rfl, fun _ => rfl, fun _ => ⟨rfl, fun _ => rfl⟩,
      fun nodes hnodes => absurd hnodes (by simp [polledNodes])⟩

/-- **The inversion lemma.**  Every run of `run` is a poll. -/
theorem run_polled (h : Runs pollAct et.run () tr et' ()) : Polled et tr et' := by
  obtain ⟨tr₁, tr₂, r, ⟨⟩, rfl, hlist, hrest⟩ := Runs.of_bind h
  rcases runs_getMatchingPods hlist with ⟨msg, e, rfl, rfl, hpods, hnodes, hdrain, hpod⟩ |
    ⟨listed, e, rfl, rfl, hpods, hnodes, hdrain, hpod, hkeys, hcontainers⟩
  · obtain ⟨rfl, rfl, -⟩ := Runs.of_pure hrest
    rw [List.append_nil]
    have hnone : ∀ node, [e].filter (drainCall node) = [] := fun node => by simp [hdrain node]
    refine ⟨rfl, fun _ => ⟨rfl, hnone, fun key => by simp [hpod key]⟩, ?_, fun _ => ⟨rfl, hnone⟩,
      ?_, ?_, ?_⟩
    all_goals
      intro pods
      simp [hpods]
  · obtain ⟨tr₃, tr₄, et₁, ⟨⟩, rfl, hdrains, hloop⟩ := Runs.of_bind hrest
    obtain ⟨hconfig₁, hpods₃, hcalls₃, hnone₃, hsome₃⟩ := runs_handleDrains hdrains
    have hissued : ∀ e ∈ tr₄, PodOp e.op :=
      (Issues.foldlM (fun b pod => issues_handlePod b pod) _).of_runs hloop
    have hrunning : (listed.filter (fun pod => pod.running)).Sublist listed := List.filter_sublist
    obtain ⟨hconfig, hgone, hpolled⟩ := runs_handlePods (hkeys.sublist (hrunning.map Pod.key)) hloop
    -- the poll's listings and checkpoints, by its parts
    have hlistedPods : polledPods ([e] ++ (tr₃ ++ tr₄)) =
        some (listed.filter (fun pod => pod.running)) := by
      simp [polledPods, hpods]
    have hlistedNodes : polledNodes ([e] ++ (tr₃ ++ tr₄)) = polledNodes tr₃ := by
      have hnone : tr₄.findSome? nodeListing = none := by
        rw [List.findSome?_eq_none_iff]
        intro e' he'
        obtain ⟨reason, pod, container, -, hop⟩ := hissued e' he'
        obtain ⟨op, r⟩ := e'
        cases hop
        rfl
      simp [polledNodes, hnodes, hnone]
    have hdrainCalls : ∀ node, ([e] ++ (tr₃ ++ tr₄)).filter (drainCall node) =
        tr₃.filter (drainCall node) := by
      intro node
      simp [hdrain node, filter_drainCall_pod hissued]
    have hpodCalls : ∀ key, ([e] ++ (tr₃ ++ tr₄)).filter (podCall key) =
        tr₄.filter (podCall key) := by
      intro key
      simp [hpod key, hcalls₃ key]
    have hseen₁ : ∀ key, key ∈ et₁.seenPods ↔
        key ∈ et.seenPods ∧ key ∈ (listed.filter (fun pod => pod.running)).map Pod.key := by
      intro key
      rw [hconfig₁, List.mem_filter, List.contains_iff_mem]
    refine ⟨?_, fun hnone => ?_, fun pods hpods' => ?_, fun hnone => ?_,
      fun pods nodes hpods' hnodes' =>
      ?_, fun pods key hpods' hkey => ?_, fun pods hpods' pod hmem => ?_⟩
    · rw [hconfig, hconfig₁]
    · exact absurd (hlistedPods.symm.trans hnone) (by simp)
    · obtain rfl := Option.some.inj (hlistedPods.symm.trans hpods')
      exact ⟨hkeys.sublist (hrunning.map Pod.key),
        fun pod hmem => hcontainers pod (hrunning.subset hmem)⟩
    · obtain ⟨hsame, hcalls⟩ := hnone₃ (hlistedNodes.symm.trans hnone)
      refine ⟨?_, fun node => (hdrainCalls node).trans (hcalls node)⟩
      rw [hconfig, hsame]
    · obtain rfl := Option.some.inj (hlistedPods.symm.trans hpods')
      obtain ⟨hwatch, hnode⟩ := hsome₃ nodes (hlistedNodes.symm.trans hnodes')
      refine ⟨hwatch, fun node => ?_⟩
      rw [hdrainCalls node]
      have h₁ := hnode node
      have hseen' : et'.seenNodes = et₁.seenNodes := by rw [hconfig]
      exact ⟨by rw [hseen']; exact h₁.ended, by rw [hseen']; exact h₁.again,
        by rw [hseen']; exact h₁.first⟩
    · obtain rfl := Option.some.inj (hlistedPods.symm.trans hpods')
      obtain ⟨hcalls, hseen'⟩ := hgone key hkey
      rw [hpodCalls key, hseen', hseen₁]
      exact ⟨hcalls, fun hmem => hkey hmem.2⟩
    · obtain rfl := Option.some.inj (hlistedPods.symm.trans hpods')
      rw [hpodCalls]
      have hkey : pod.key ∈ et₁.seenPods ↔ pod.key ∈ et.seenPods := by
        rw [hseen₁]
        exact and_iff_left (List.mem_map_of_mem hmem)
      refine ⟨fun hseen => (hpolled pod hmem).again (hkey.mpr hseen), fun hseen => ?_⟩
      obtain ⟨evicted, preempted, heq, hsignals⟩ :=
        (hpolled pod hmem).first (fun hmem' => hseen (hkey.mp hmem'))
      refine ⟨evicted, preempted, heq, ?_⟩
      rw [hconfig₁] at hsignals
      exact Signals.of_memory hsignals

end Run

end CheckpointRestore.Schedule
