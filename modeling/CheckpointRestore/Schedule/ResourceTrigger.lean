import CheckpointRestore.Lib.Prog
import CheckpointRestore.Schedule.ResourceUsage

namespace CheckpointRestore.Schedule.Metered

open Interaction Go Resource

/-!
# `ResourceTrigger` — checkpoints when a threshold is crossed

The trigger polls the metrics of the matching pods and checkpoints the containers that cross a
threshold, each at most once in five minutes.  It runs in a goroutine that does not recover: what
panics there ends the operator.

* `run` — one poll, as the source has it;
* `trigger` — the goroutine: a ticker, and a poll at each tick;
* `SafeLimits` — no limit that a threshold is compared with is converted to zero;
* `trigger_never_panics_iff` — which schedules and pods cannot crash the operator.
-/

/-! ### The outside world -/

/-- A container and its limits. -/
structure LimitedContainer where
  name : String
  limits : ResourceList

/-- A pod. -/
structure LimitedPod where
  ns : String
  name : String
  nodeName : String
  running : Bool
  containers : List LimitedContainer

/-- What a poll asks for; the clock is read in the turn of a container. -/
inductive Op where
  | listPods (ns selector : String)
  | httpClient
  | fetchPodMetrics (ns pod : String)
  | now (turn : PodContainerRef)
  | createCheckpoint (ns pod container node : String)

/-- The effect signature; times are nanoseconds since 1970. -/
def sig : Signature where
  Op := Op
  Reply
    | .listPods _ _ => Except String (List LimitedPod)
    | .httpClient => Except String Unit
    | .fetchPodMetrics _ _ => Except String (List ContainerMetricsItem)
    | .now _ => ℤ
    | .createCheckpoint _ _ _ _ => Except String String

/-- The `List` call of `getMatchingPods`. -/
def listPods (ns selector : String) : Prog sig (Except String (List LimitedPod)) :=
  .perform (S := sig) (Op.listPods ns selector)

/-- `rest.HTTPClientFor`. -/
def httpClient : Prog sig (Except String Unit) := .perform (S := sig) Op.httpClient

/-- `fetchPodMetrics`. -/
def fetchPodMetrics (ns pod : String) : Prog sig (Except String (List ContainerMetricsItem)) :=
  .perform (S := sig) (Op.fetchPodMetrics ns pod)

/-- `time.Now`. -/
def now (turn : PodContainerRef) : Prog sig ℤ := .perform (S := sig) (Op.now turn)

/-- `rt.creator.createCheckpoint`. -/
def createCheckpoint (ns pod container node : String) : Prog sig (Except String String) :=
  .perform (S := sig) (Op.createCheckpoint ns pod container node)

/-- `getMatchingPods`: only running pods count. -/
def getMatchingPods (ns selector : String) : Prog sig (Except String (List LimitedPod)) := do
  match ← listPods ns selector with
  | .error e => return .error e
  | .ok pods => return .ok (pods.filter (fun pod => pod.running))

/-- `filterContainers`. -/
def filterContainers (pod : LimitedPod) (containerNames : List String) : List LimitedContainer :=
  if containerNames = [] then pod.containers
  else pod.containers.filter (fun container => containerNames.contains container.name)

/-! ### One poll -/

/-- `lastCheckpoint`. -/
abbrev Cooldowns := AList (fun _ : String => ℤ)

/-- `checkpointCooldown`. -/
def checkpointCooldown : ℤ := 5 * 60 * 10 ^ 9

/-- The zero `time.Time`, the start of the year 1. -/
def zeroTime : ℤ := -62135596800 * 10 ^ 9

/-- `time.Since`, which does not overflow. -/
def since (now last : ℤ) : ℤ := max (-2 ^ 63) (min (2 ^ 63 - 1) (now - last))

/-- The key of a container's cooldown. -/
def cooldownKey (pod container : String) : String := pod ++ "/" ++ container

/-- The limits of the selected containers by name; the last of a name counts. -/
def limitsByName (containers : List LimitedContainer) : AList (fun _ : String => ResourceList) :=
  containers.foldl (fun limits container => limits.insert container.name container.limits) ∅

/-- A checkpoint, and the time if it has succeeded. -/
def checkpoint (pod : LimitedPod) (container : String) (last : Cooldowns) :
    Prog sig Cooldowns := do
  match ← createCheckpoint pod.ns pod.name container pod.nodeName with
  | .error _ => return last
  | .ok _ =>
    let time ← now ⟨pod.ns, pod.name, container⟩
    return last.insert (cooldownKey pod.name container) time

/-- The container is cooling down. -/
def cooling (last : Cooldowns) (key : String) (time : ℤ) : Bool :=
  decide (since time ((last.lookup key).getD zeroTime) < checkpointCooldown)

/-- A container that crosses a threshold: a checkpoint, unless it is cooling down. -/
def attempt (pod : LimitedPod) (container : String) (last : Cooldowns) : Prog sig Cooldowns := do
  let time ← now ⟨pod.ns, pod.name, container⟩
  if cooling last (cooldownKey pod.name container) time then return last
  else checkpoint pod container last

/-- The loop over the metrics of a pod. -/
def checkItems (threshold : ResourceThresholdSpec) (pod : LimitedPod)
    (limits : AList (fun _ : String => ResourceList)) :
    Cooldowns → List ContainerMetricsItem → Prog sig (Except Panic Cooldowns)
  | last, [] => return .ok last
  | last, cm :: items =>
    match limits.lookup cm.name with
    | none => checkItems threshold pod limits last items
    | some containerLimits =>
      match thresholdExceeded cm containerLimits threshold with
      | .error p => return .error p
      | .ok none => checkItems threshold pod limits last items
      | .ok (some _) => do
        let last ← attempt pod cm.name last
        checkItems threshold pod limits last items

/-- One pod of the poll. -/
def handlePod (containerNames : List String) (threshold : ResourceThresholdSpec)
    (pod : LimitedPod) (last : Cooldowns) : Prog sig (Except Panic Cooldowns) := do
  match ← fetchPodMetrics pod.ns pod.name with
  | .error _ => return .ok last
  | .ok items =>
    checkItems threshold pod (limitsByName (filterContainers pod containerNames)) last items

/-- The loop over the pods. -/
def handlePods (containerNames : List String) (threshold : ResourceThresholdSpec) :
    Cooldowns → List LimitedPod → Prog sig (Except Panic Cooldowns)
  | last, [] => return .ok last
  | last, pod :: pods => do
    match ← handlePod containerNames threshold pod last with
    | .error p => return .error p
    | .ok last => handlePods containerNames threshold last pods

/-- `run`: what is left in `lastCheckpoint`. -/
def run (spec : Spec) (last : Cooldowns) : Prog sig (Except Panic Cooldowns) :=
  match spec.triggers.resourceThreshold with
  | none => return .ok last
  | some threshold => do
    match ← getMatchingPods spec.ns spec.selector with
    | .error _ => return .ok last
    | .ok pods =>
      match ← httpClient with
      | .error _ => return .ok last
      | .ok () => handlePods spec.containerNames threshold last pods

/-! ### The goroutine -/

/-- The interval of `NewResourceTrigger`: `int64` nanoseconds. -/
def pollInterval (spec : Spec) : ℤ :=
  match spec.triggers.resourceThreshold with
  | none => 30 * 10 ^ 9
  | some threshold =>
    match threshold.pollIntervalSeconds with
    | none => 30 * 10 ^ 9
    | some seconds => wrap64 (seconds * 10 ^ 9)

/-- A number of polls. -/
def polls (spec : Spec) : ℕ → Cooldowns → Prog sig (Except Panic Cooldowns)
  | 0, last => return .ok last
  | n + 1, last => do
    match ← run spec last with
    | .error p => return .error p
    | .ok last => polls spec n last

/-- The goroutine of `Start` until it is stopped: `time.NewTicker` panics without a positive
    interval, and each tick is a poll. -/
def trigger (spec : Spec) (ticks : ℕ) : Prog sig (Except Panic Cooldowns) :=
  if pollInterval spec ≤ 0 then return .error .nonPositiveInterval
  else polls spec ticks ∅

/-! ### What cannot panic -/

/-- No limit that a threshold is compared with is converted to zero. -/
def SafeLimits (threshold : ResourceThresholdSpec) (limits : ResourceList) : Prop :=
  ∀ metric : Metric, (metric.threshold threshold).isSome = true →
    ∀ limit, limits.lookup metric.resource = some limit → limit.isZero = false →
      ¬ limit.Vanishes metric.digits

/-- The limits are quantities, and none is negative. -/
def ValidLimits (limits : ResourceList) : Prop :=
  ∀ name limit, limits.lookup name = some limit → limit.InRange ∧ 0 ≤ limit.asDec.1

/-- The seconds between polls are positive as `int64` nanoseconds. -/
def PositiveInterval (spec : Spec) : Prop :=
  ∀ threshold seconds, spec.triggers.resourceThreshold = some threshold →
    threshold.pollIntervalSeconds = some seconds →
    0 < seconds * 10 ^ 9 % 2 ^ 64 ∧ seconds * 10 ^ 9 % 2 ^ 64 < 2 ^ 63

theorem pollInterval_pos_iff (spec : Spec) : 0 < pollInterval spec ↔ PositiveInterval spec := by
  have hwrap : ∀ x : ℤ, 0 < wrap64 x ↔ 0 < x % 2 ^ 64 ∧ x % 2 ^ 64 < 2 ^ 63 := by
    intro x
    unfold wrap64
    rw [Int.bmod_def]
    split <;> omega
  unfold pollInterval PositiveInterval
  cases spec.triggers.resourceThreshold with
  | none => simp
  | some threshold =>
    dsimp only
    cases hseconds : threshold.pollIntervalSeconds with
    | none =>
      refine ⟨fun _ threshold' seconds h hseconds' => ?_, fun _ => by norm_num⟩
      rw [← Option.some.inj h, hseconds] at hseconds'
      exact absurd hseconds' (by simp)
    | some seconds =>
      rw [hwrap]
      refine ⟨fun hpos threshold' seconds' h hseconds' => ?_,
        fun h => h threshold seconds rfl hseconds⟩
      rw [← Option.some.inj h, hseconds] at hseconds'
      rwa [← Option.some.inj hseconds']

/-- Positive quantities: not zero, and not negative. -/
theorem asDec_pos {q : Quantity} (hzero : q.isZero = false) (hnn : 0 ≤ q.asDec.1) :
    0 < q.asDec.1 := by
  have hne : q.asDec.1 ≠ 0 := by
    cases q <;> simpa [Quantity.isZero, Quantity.asDec] using hzero
  omega

variable {threshold : ResourceThresholdSpec} {limits : ResourceList}

/-- Against safe limits nothing goes wrong but the parser of quantities. -/
theorem SafeLimits.error (hsafe : SafeLimits threshold limits) (hvalid : ValidLimits limits)
    {cm : ContainerMetricsItem} {p : Panic} (h : thresholdExceeded cm limits threshold = .error p) :
    p = .indexOutOfRange := by
  rcases thresholdExceeded_error h with hp | ⟨metric, usage, limit, hset, havail, hzero⟩
  · exact hp
  · obtain ⟨hrange, hnn⟩ := hvalid _ _ havail.limited
    rw [metric.convert_eq hrange,
      Quantity.scaled_eq_zero_iff hrange (asDec_pos havail.nonzero hnn)] at hzero
    exact absurd hzero (hsafe metric hset limit havail.limited havail.nonzero)

/-- The limits by name are those of one of the containers. -/
theorem lookup_limitsByName {containers : List LimitedContainer} {name : String}
    (h : (limitsByName containers).lookup name = some limits) :
    ∃ container ∈ containers, container.limits = limits := by
  unfold limitsByName at h
  induction containers using List.reverseRecOn with
  | nil => exact absurd h (by simp)
  | append_singleton containers container ih =>
    rw [List.foldl_append, List.foldl_cons, List.foldl_nil] at h
    by_cases hname : name = container.name
    · rw [hname, AList.lookup_insert] at h
      exact ⟨container, by simp, Option.some.inj h⟩
    · rw [AList.lookup_insert_ne hname] at h
      obtain ⟨c, hc, hlimits⟩ := ih h
      exact ⟨c, by simp [hc], hlimits⟩

variable {pod : LimitedPod}

theorem mem_of_mem_filterContainers {containerNames : List String} {container : LimitedContainer}
    (h : container ∈ filterContainers pod containerNames) : container ∈ pod.containers := by
  unfold filterContainers at h
  split_ifs at h
  · exact h
  · exact (List.mem_filter.mp h).1

variable {spec : Spec}

section Cluster
variable (pods : Set LimitedPod)

/-- Any of the pods may be listed at any time; every other reply is possible. -/
def anyReply : (op : sig.Op) → Unit → sig.Reply op → Unit → Prop
  | .listPods _ _, _, r, _ => ∀ listed, (r : Except String (List LimitedPod)) = .ok listed →
      ∀ pod ∈ listed, pod ∈ pods
  | _, _, _, _ => True

/-- The contract of a world with these pods. -/
def cluster : Contract sig Unit where
  pre _ _ := True
  post := anyReply pods

/-- The result is no panic, or one of the parser of quantities. -/
def Survives (r : Except Panic Cooldowns) : Prop := ∀ p, r = .error p → p = .indexOutOfRange

/-- Every container that the poll selects has safe limits. -/
def SafePod (containerNames : List String) (threshold : ResourceThresholdSpec)
    (pod : LimitedPod) : Prop :=
  ∀ name limits, (limitsByName (filterContainers pod containerNames)).lookup name = some limits →
    SafeLimits threshold limits

variable {pods} {threshold : ResourceThresholdSpec} {containerNames : List String}

theorem wp_attempt (pod : LimitedPod) (container : String) (last : Cooldowns) :
    wp (cluster pods) (attempt pod container last) (fun _ _ => True) () := by
  have hcheckpoint : wp (cluster pods) (checkpoint pod container last) (fun _ _ => True) () := by
    unfold checkpoint
    rw [wp_bind]
    refine ⟨trivial, fun (r : Except String String) _ _ => ?_⟩
    cases r with
    | error e => trivial
    | ok path => exact ⟨trivial, fun _ _ _ => trivial⟩
  unfold attempt
  rw [wp_bind]
  refine ⟨trivial, fun (time : ℤ) _ _ => ?_⟩
  show wp (cluster pods) (if cooling last (cooldownKey pod.name container) time then _ else _) _ _
  split_ifs
  · trivial
  · exact hcheckpoint

/-- The loop over the metrics of a pod. -/
theorem wp_checkItems {limits : AList (fun _ : String => ResourceList)}
    (hsafe : ∀ name containerLimits, limits.lookup name = some containerLimits →
      SafeLimits threshold containerLimits ∧ ValidLimits containerLimits)
    (items : List ContainerMetricsItem) (last : Cooldowns) :
    wp (cluster pods) (checkItems threshold pod limits last items) (fun r _ => Survives r) () := by
  induction items generalizing last with
  | nil => exact fun p hp => absurd hp (by simp)
  | cons cm items ih =>
    unfold checkItems
    cases hlimits : limits.lookup cm.name with
    | none => exact ih last
    | some containerLimits =>
      obtain ⟨hsafe', hvalid⟩ := hsafe _ _ hlimits
      dsimp only
      cases hexceeded : thresholdExceeded cm containerLimits threshold with
      | error p =>
        -- the only panic left is that of the parser, which `Survives` leaves apart
        intro p' hp'
        obtain rfl := Except.error.inj hp'
        exact hsafe'.error hvalid hexceeded
      | ok reason =>
        cases reason with
        | none => exact ih last
        | some reason =>
          dsimp only
          rw [wp_bind]
          exact wp_mono (fun last' _ _ => ih last') (wp_attempt pod cm.name last)

theorem wp_handlePods {listed : List LimitedPod}
    (hsafe : ∀ pod ∈ listed, SafePod containerNames threshold pod)
    (hvalid : ∀ pod ∈ listed, ∀ container ∈ pod.containers, ValidLimits container.limits)
    (last : Cooldowns) :
    wp (cluster pods) (handlePods containerNames threshold last listed)
      (fun r _ => Survives r) () := by
  induction listed generalizing last with
  | nil => exact fun p hp => absurd hp (by simp)
  | cons pod listed ih =>
    have hpod : wp (cluster pods) (handlePod containerNames threshold pod last)
        (fun r _ => Survives r) () := by
      unfold handlePod
      rw [wp_bind]
      refine ⟨trivial, fun (r : Except String (List ContainerMetricsItem)) _ _ => ?_⟩
      cases r with
      -- a pod without metrics is skipped
      | error e => exact fun p hp => absurd hp (by simp)
      | ok items =>
        refine wp_checkItems (fun name limits hlimits => ?_) items last
        obtain ⟨container, hmem, rfl⟩ := lookup_limitsByName hlimits
        exact ⟨hsafe pod (by simp) name _ hlimits,
          hvalid pod (by simp) container (mem_of_mem_filterContainers hmem)⟩
    unfold handlePods
    rw [wp_bind]
    refine wp_mono (fun r _ hr => ?_) hpod
    cases r with
    | error p => exact hr
    | ok last' =>
      exact ih (fun pod' h => hsafe pod' (by simp [h]))
        (fun pod' h => hvalid pod' (by simp [h])) last'

/-- One poll. -/
theorem wp_run
    (hsafe : ∀ threshold, spec.triggers.resourceThreshold = some threshold → ∀ pod ∈ pods,
      pod.running = true → SafePod spec.containerNames threshold pod)
    (hvalid : ∀ pod ∈ pods, ∀ container ∈ pod.containers, ValidLimits container.limits)
    (last : Cooldowns) : wp (cluster pods) (run spec last) (fun r _ => Survives r) () := by
  have hok : Survives (.ok last) := fun p hp => absurd hp (by simp)
  unfold run
  cases hthreshold : spec.triggers.resourceThreshold with
  | none => exact hok
  | some threshold =>
    dsimp only
    unfold getMatchingPods
    rw [wp_bind, wp_bind]
    refine ⟨trivial, fun (r : Except String (List LimitedPod)) _ hr => ?_⟩
    cases r with
    | error e => exact hok
    | ok listed =>
      -- the list may be any of the pods, and only those that run are handled
      have hlisted : ∀ pod ∈ listed, pod ∈ pods := hr listed rfl
      refine ⟨trivial, fun (r : Except String Unit) _ _ => ?_⟩
      cases r with
      | error e => exact hok
      | ok u =>
        refine wp_handlePods (fun pod hpod => ?_) (fun pod hpod => ?_) last
        · obtain ⟨hmem, hrunning⟩ := List.mem_filter.mp hpod
          exact hsafe threshold hthreshold pod (hlisted pod hmem) hrunning
        · exact hvalid pod (hlisted pod (List.mem_filter.mp hpod).1)

/-- Any number of polls. -/
theorem wp_polls (hrun : ∀ last, wp (cluster pods) (run spec last) (fun r _ => Survives r) ())
    (n : ℕ) (last : Cooldowns) :
    wp (cluster pods) (polls spec n last) (fun r _ => Survives r) () := by
  induction n generalizing last with
  | zero => exact fun p hp => absurd hp (by simp)
  | succ n ih =>
    unfold polls
    rw [wp_bind]
    refine wp_mono (fun r _ hr => ?_) (hrun last)
    cases r with
    | error p => exact hr
    | ok last' => exact ih last'

/-! ### What can -/

/-- A world with one pod and one metric of one of its containers. -/
def lone (pod : LimitedPod) (item : ContainerMetricsItem) :
    (op : sig.Op) → Unit → sig.Reply op × Unit
  | .listPods _ _, _ => ((.ok [pod] : Except String (List LimitedPod)), ())
  | .httpClient, _ => ((.ok () : Except String Unit), ())
  | .fetchPodMetrics _ _, _ => ((.ok [item] : Except String (List ContainerMetricsItem)), ())
  | .now _, _ => ((0 : ℤ), ())
  | .createCheckpoint _ _ _ _, _ => ((.error "" : Except String String), ())

/-- No usage at all, and a limit that is converted to zero: a division by zero. -/
theorem thresholdExceeded_idle {metric : Metric}
    (hset : (metric.threshold threshold).isSome = true) {limit : Quantity}
    (hlimit : limits.lookup metric.resource = some limit) (hnonzero : limit.isZero = false)
    (hzero : metric.convert limit = 0) (name : String) :
    thresholdExceeded ⟨name, AList.insert metric.resource "0" ∅⟩ limits threshold
      = .error .divideByZero := by
  obtain ⟨bounds, hbounds⟩ := Option.isSome_iff_exists.mp hset
  have havail : Available metric ⟨name, AList.insert metric.resource "0" ∅⟩ limits (.int64 0 0)
      limit := ⟨⟨"0", AList.lookup_insert _, by decide⟩, hlimit, hnonzero⟩
  have hdivide := usagePercent_of_available havail
  rw [if_pos hzero] at hdivide
  unfold thresholdExceeded memoryUsagePercent cpuUsagePercent
  cases metric with
  | memory =>
    have hmemory : threshold.memoryPercent = some bounds := hbounds
    rw [hmemory, hdivide]
    rfl
  | cpu =>
    -- without a usage of memory its bounds do not matter
    have hcpu : threshold.cpuPercent = some bounds := hbounds
    have hmemory : usagePercent .memory ⟨name, AList.insert Metric.cpu.resource "0" ∅⟩ limits
        = .ok none := by
      unfold usagePercent
      rw [show (AList.insert Metric.cpu.resource "0" ∅ : StringMap).lookup Metric.memory.resource
        = none from AList.lookup_insert_ne (by decide)]
    rw [hmemory, hcpu, hdivide]
    cases threshold.memoryPercent <;> rfl

theorem run_lone (hthreshold : spec.triggers.resourceThreshold = some threshold)
    (hrunning : pod.running = true) {item : ContainerMetricsItem}
    (hlimits : (limitsByName (filterContainers pod spec.containerNames)).lookup item.name
      = some limits)
    {p : Panic} (hpanic : thresholdExceeded item limits threshold = .error p) (last : Cooldowns) :
    (exec (lone pod item) (run spec last) ()).1 = .error p := by
  have hlisted : exec (lone pod item) (getMatchingPods spec.ns spec.selector) ()
      = (.ok [pod], ()) := by
    show (Except.ok ([pod].filter (fun pod => pod.running)), ()) = _
    rw [List.filter_cons_of_pos hrunning, List.filter_nil]
  have hpod : exec (lone pod item) (handlePod spec.containerNames threshold pod last) ()
      = (.error p, ()) := by
    show exec (lone pod item) (checkItems threshold pod
      (limitsByName (filterContainers pod spec.containerNames)) last [item]) () = _
    simp only [checkItems, hlimits, hpanic]
    rfl
  unfold run
  rw [hthreshold]
  dsimp only
  rw [exec_bind, hlisted]
  show (exec (lone pod item) (handlePods spec.containerNames threshold last [pod]) ()).1 = _
  rw [handlePods, exec_bind, hpod]
  rfl

end Cluster

/-- **Which schedules and pods cannot crash the operator.**  Whatever the metrics and however many
    polls, nothing panics but the parser of quantities, exactly if the interval is positive and
    no selected container of a running pod has a limit that is compared with a threshold and is
    converted to zero. -/
theorem trigger_never_panics_iff (pods : Set LimitedPod) (spec : Spec)
    (hvalid : ∀ pod ∈ pods, ∀ container ∈ pod.containers, ValidLimits container.limits) :
    (∀ ticks tr r s, Runs (anyReply pods) (trigger spec ticks) () tr r s → Survives r) ↔
      PositiveInterval spec ∧
      ∀ threshold, spec.triggers.resourceThreshold = some threshold → ∀ pod ∈ pods,
        pod.running = true → SafePod spec.containerNames threshold pod := by
  constructor
  · intro hnever
    have hpos : 0 < pollInterval spec := by
      by_contra hle
      have hstart : trigger spec 0 = .pure (.error .nonPositiveInterval) := if_pos (not_lt.mp hle)
      have hruns := hnever 0 [] (.error .nonPositiveInterval) () (hstart ▸ .pure _ ())
      exact absurd (hruns _ rfl) (by simp)
    refine ⟨(pollInterval_pos_iff spec).mp hpos, ?_⟩
    intro threshold hthreshold pod hpod hrunning name limits hlimits metric hset limit hlimit
      hnonzero hvanishes
    obtain ⟨container, hmem, rfl⟩ := lookup_limitsByName hlimits
    obtain ⟨hrange, hnn⟩ :=
      hvalid pod hpod container (mem_of_mem_filterContainers hmem) _ _ hlimit
    have hzero : metric.convert limit = 0 := by
      rw [metric.convert_eq hrange,
        Quantity.scaled_eq_zero_iff hrange (asDec_pos hnonzero hnn)]
      exact hvanishes
    have hpanic := thresholdExceeded_idle hset hlimit hnonzero hzero name
    -- one poll that is told of this container alone
    have hworld : ∀ op s, anyReply pods op s
        (lone pod ⟨name, AList.insert metric.resource "0" ∅⟩ op s).1
        (lone pod ⟨name, AList.insert metric.resource "0" ∅⟩ op s).2 := by
      intro op s
      cases op with
      | listPods ns selector =>
        intro listed hlisted pod' hpod'
        rw [← Except.ok.inj hlisted] at hpod'
        rwa [List.mem_singleton.mp hpod']
      | _ => trivial
    have hruns := hnever 1 _ _ _ (Runs.of_exec hworld (trigger spec 1) ())
    have hcrash : (exec (lone pod ⟨name, AList.insert metric.resource "0" ∅⟩) (trigger spec 1) ()).1
        = .error .divideByZero := by
      rw [trigger, if_neg (not_le.mpr hpos)]
      simp only [polls, exec_bind]
      rw [run_lone hthreshold hrunning hlimits hpanic]
      rfl
    exact absurd (hruns _ hcrash) (by simp)
  · rintro ⟨hpos, hsafe⟩ ticks tr r s hruns
    rw [trigger, if_neg (not_le.mpr ((pollInterval_pos_iff spec).mpr hpos))] at hruns
    exact wp_runs (C := cluster pods) (wp_polls (wp_run hsafe hvalid) ticks ∅) hruns

/-- A schedule for containers that use half of their memory. -/
def memorySchedule (seconds : Option ℤ) : Spec where
  ns := ""
  selector := "app=web"
  containerNames := []
  triggers := {
    interval := none
    resourceThreshold := some ⟨none, some ⟨some 50, none⟩, seconds⟩
    onKubernetesEvents := []
    onAnnotation := false }

/-- A pod of one container with a memory limit. -/
def webPod (ns : String) (limit : Quantity) : LimitedPod where
  ns := ns
  name := "web"
  nodeName := "node-1"
  running := true
  containers := [⟨"web", memoryLimit limit⟩]

/-- With a limit of 128Mi and the default interval nothing panics but the parser. -/
theorem trigger_never_panics_web :
    PositiveInterval (memorySchedule none) ∧
    ∀ ticks tr r s, Runs (anyReply {webPod "team" (.int64 (2 ^ 27) 0)})
      (trigger (memorySchedule none) ticks) () tr r s → Survives r := by
  have hlimits : ValidLimits (memoryLimit (.int64 (2 ^ 27) 0)) := by
    intro name limit hlimit
    by_cases hname : name = "memory"
    · rw [hname, memoryLimit, AList.lookup_insert] at hlimit
      obtain rfl := Option.some.inj hlimit
      exact ⟨by norm_num [Quantity.InRange], by norm_num [Quantity.asDec]⟩
    · rw [memoryLimit, AList.lookup_insert_ne hname, AList.lookup_empty] at hlimit
      exact absurd hlimit (by simp)
  have hvalid : ∀ pod ∈ ({webPod "team" (.int64 (2 ^ 27) 0)} : Set LimitedPod),
      ∀ container ∈ pod.containers, ValidLimits container.limits := by
    rintro pod rfl container hcontainer
    obtain rfl := List.mem_singleton.mp hcontainer
    exact hlimits
  have hpositive : PositiveInterval (memorySchedule none) := by
    intro threshold seconds hthreshold hseconds
    rw [← Option.some.inj hthreshold] at hseconds
    exact absurd hseconds (by simp)
  refine ⟨hpositive, (trigger_never_panics_iff _ _ hvalid).mpr ⟨hpositive, ?_⟩⟩
  rintro threshold hthreshold pod rfl - name limits hlookup metric - limit hlimit -
  obtain ⟨container, hcontainer, rfl⟩ := lookup_limitsByName hlookup
  obtain rfl := List.mem_singleton.mp (mem_of_mem_filterContainers hcontainer)
  obtain ⟨rfl, rfl⟩ := lookup_memory metric hlimit
  rintro ⟨-, hoverflows⟩
  exact absurd hoverflows (by norm_num [Overflows, Metric.digits, wrap32])

/-- A limit of 10E ends the operator at the first poll, and an interval of no seconds before. -/
theorem trigger_panics :
    parseQuantity "10E" = .ok (.int64 10 18) ∧
    (exec (lone (webPod "team" (.int64 10 18)) (memoryItem "64Mi"))
      (trigger (memorySchedule none) 1)
      ()).1 = .error .divideByZero ∧
    (exec (lone (webPod "team" (.int64 (2 ^ 27) 0)) (memoryItem "64Mi"))
      (trigger (memorySchedule (some 0)) 0) ()).1 = .error .nonPositiveInterval := by
  decide +kernel

end CheckpointRestore.Schedule.Metered
