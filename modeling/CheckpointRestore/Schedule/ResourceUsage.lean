import CheckpointRestore.Archive
import CheckpointRestore.Lib.QuantityExact
import CheckpointRestore.Schedule.EventTrigger

namespace CheckpointRestore.Schedule.Metered

open Go Resource

/-!
# Resource usage — percentages and thresholds of `resource_trigger.go`

The resource trigger compares what the metrics API reports of a container with the container's
limits, in whole percent: memory in bytes, CPU in thousandths.

* `usagePercent` — `memoryUsagePercent` and `cpuUsagePercent`, one function for both metrics;
* `thresholdExceeded` — the first bound that is breached, with its text;
* `thresholdExceeded_error` — a division by zero needs a limit that is converted to zero;
* `percent_eq_exact` — a percentage is exact where nothing overflows;
* `thresholds_exact` — and then a breach is reported exactly where there is one.
-/

/-! ### What is measured -/

/-- `corev1.ResourceList`. -/
abbrev ResourceList := AList (fun _ : String => Quantity)

/-- `containerMetricsItem`. -/
structure ContainerMetricsItem where
  name : String
  usage : StringMap

/-- What ends the process: a ticker without a positive interval, a division by zero, and an
    index out of range in the parser of quantities. -/
inductive Panic where
  | nonPositiveInterval
  | divideByZero
  | indexOutOfRange
  deriving DecidableEq

/-- The metrics that have thresholds. -/
inductive Metric where
  | memory
  | cpu
  deriving DecidableEq

namespace Metric

/-- The name of the resource. -/
def resource : Metric → String
  | memory => "memory"
  | cpu => "cpu"

/-- The name in the trigger's texts. -/
def label : Metric → String
  | memory => "memory"
  | cpu => "CPU"

/-- `Value` or `MilliValue`. -/
def convert : Metric → Quantity → ℤ
  | memory => Quantity.value
  | cpu => Quantity.milliValue

/-- The decimal places that are counted. -/
def digits : Metric → ℤ
  | memory => 0
  | cpu => 3

/-- The bounds that are configured. -/
def threshold (spec : ResourceThresholdSpec) : Metric → Option ResourcePercentThreshold
  | memory => spec.memoryPercent
  | cpu => spec.cpuPercent

theorem convert_eq (metric : Metric) {q : Quantity} (hq : q.InRange) :
    metric.convert q = q.scaled metric.digits := by
  cases metric with
  | memory => exact Quantity.value_eq_scaled hq
  | cpu => rfl

end Metric

/-! ### Percentages -/

/-- The quotient as the code computes it, in `int64`. -/
def percent (metric : Metric) (usage limit : Quantity) : ℤ :=
  wrap64 ((wrap64 (metric.convert usage * 100)).tdiv (metric.convert limit))

/-- Usage in percent of the limit, where both are available. -/
def usagePercent (metric : Metric) (cm : ContainerMetricsItem) (limits : ResourceList) :
    Except Panic (Option ℤ) :=
  match cm.usage.lookup metric.resource with
  | none => .ok none
  | some usageStr =>
    match parseQuantity usageStr with
    | .error .indexOutOfRange => .error .indexOutOfRange
    | .error _ => .ok none
    | .ok usage =>
      match limits.lookup metric.resource with
      | none => .ok none
      | some limit =>
        if limit.isZero then .ok none
        else if metric.convert limit = 0 then .error .divideByZero
        else .ok (some (percent metric usage limit))

/-- `memoryUsagePercent`. -/
def memoryUsagePercent : ContainerMetricsItem → ResourceList → Except Panic (Option ℤ) :=
  usagePercent .memory

/-- `cpuUsagePercent`. -/
def cpuUsagePercent : ContainerMetricsItem → ResourceList → Except Panic (Option ℤ) :=
  usagePercent .cpu

/-! ### Thresholds -/

/-- The lower bound, with the text if it is breached. -/
def lowerBreach (metric : Metric) (threshold : ResourcePercentThreshold) (pct : ℤ) :
    Option String :=
  match threshold.lower with
  | none => none
  | some lower =>
    if pct ≤ lower then some (metric.label ++ " " ++ toString pct ++ "% <= lower threshold "
      ++ toString lower ++ "%")
    else none

/-- The bounds of one metric, the upper one first. -/
def breach (metric : Metric) (threshold : ResourcePercentThreshold) (pct : ℤ) : Option String :=
  match threshold.upper with
  | none => lowerBreach metric threshold pct
  | some upper =>
    if pct ≥ upper then some (metric.label ++ " " ++ toString pct ++ "% >= upper threshold "
      ++ toString upper ++ "%")
    else lowerBreach metric threshold pct

/-- One metric of `thresholdExceeded`. -/
def metricExceeded (metric : Metric) (threshold : Option ResourcePercentThreshold)
    (pct : Except Panic (Option ℤ)) : Except Panic (Option String) :=
  match threshold with
  | none => .ok none
  | some threshold =>
    match pct with
    | .error p => .error p
    | .ok none => .ok none
    | .ok (some pct) => .ok (breach metric threshold pct)

/-- `thresholdExceeded`: the reason, if there is one. -/
def thresholdExceeded (cm : ContainerMetricsItem) (limits : ResourceList)
    (spec : ResourceThresholdSpec) : Except Panic (Option String) :=
  match metricExceeded .memory spec.memoryPercent (memoryUsagePercent cm limits) with
  | .error p => .error p
  | .ok (some reason) => .ok (some reason)
  | .ok none => metricExceeded .cpu spec.cpuPercent (cpuUsagePercent cm limits)

/-! ### When a percentage is computed -/

/-- Usage and limit of the metric are available. -/
structure Available (metric : Metric) (cm : ContainerMetricsItem) (limits : ResourceList)
    (usage limit : Quantity) : Prop where
  measured : ∃ text, cm.usage.lookup metric.resource = some text ∧ parseQuantity text = .ok usage
  limited : limits.lookup metric.resource = some limit
  nonzero : limit.isZero = false

section Available
variable {metric : Metric} {cm : ContainerMetricsItem} {limits : ResourceList}
  {usage limit : Quantity}

theorem usagePercent_of_available (h : Available metric cm limits usage limit) :
    usagePercent metric cm limits
      = if metric.convert limit = 0 then .error .divideByZero
        else .ok (some (percent metric usage limit)) := by
  obtain ⟨⟨text, htext, hparse⟩, hlimit, hnonzero⟩ := h
  unfold usagePercent
  simp only [htext, hparse, hlimit, hnonzero, Bool.false_eq_true, if_false]

/-- Without usage and limit there is no percentage, or the parser of quantities has ended the
    process. -/
theorem usagePercent_cases (metric : Metric) (cm : ContainerMetricsItem) (limits : ResourceList) :
    (∃ usage limit, Available metric cm limits usage limit) ∨
    usagePercent metric cm limits = .ok none ∨
    (∃ text, cm.usage.lookup metric.resource = some text ∧
      parseQuantity text = .error .indexOutOfRange) ∧
      usagePercent metric cm limits = .error .indexOutOfRange := by
  unfold usagePercent
  cases htext : cm.usage.lookup metric.resource with
  | none => exact .inr (.inl rfl)
  | some text =>
    dsimp only
    -- a text that is no quantity counts as no usage, unless parsing it panics
    cases hparse : parseQuantity text with
    | error e =>
      cases e with
      | indexOutOfRange => exact .inr (.inr ⟨⟨text, rfl, hparse⟩, rfl⟩)
      | formatWrong => exact .inr (.inl rfl)
      | numeric => exact .inr (.inl rfl)
      | suffix => exact .inr (.inl rfl)
    | ok usage =>
      dsimp only
      cases hlimit : limits.lookup metric.resource with
      | none => exact .inr (.inl rfl)
      | some limit =>
        dsimp only
        cases hzero : limit.isZero with
        | true => exact .inr (.inl rfl)
        | false => exact .inl ⟨usage, limit, ⟨text, htext, hparse⟩, hlimit, hzero⟩

theorem Available.unique {usage' limit' : Quantity} (h : Available metric cm limits usage limit)
    (h' : Available metric cm limits usage' limit') : usage' = usage ∧ limit' = limit := by
  obtain ⟨⟨text, htext, hparse⟩, hlimit, -⟩ := h
  obtain ⟨⟨text', htext', hparse'⟩, hlimit', -⟩ := h'
  obtain rfl : text' = text := Option.some.inj (htext'.symm.trans htext)
  exact ⟨Except.ok.inj (hparse'.symm.trans hparse), Option.some.inj (hlimit'.symm.trans hlimit)⟩

/-- A percentage is one of the usage and the limit that are available. -/
theorem available_of_usagePercent {pct : ℤ} (h : usagePercent metric cm limits = .ok (some pct)) :
    ∃ usage limit, Available metric cm limits usage limit ∧ pct = percent metric usage limit := by
  rcases usagePercent_cases metric cm limits with ⟨usage, limit, havail⟩ | hnone | ⟨-, hpanic⟩
  · refine ⟨usage, limit, havail, ?_⟩
    rw [usagePercent_of_available havail] at h
    split_ifs at h
    exact (Option.some.inj (Except.ok.inj h)).symm
  · rw [hnone] at h
    exact absurd (Except.ok.inj h) (by simp)
  · rw [hpanic] at h
    exact absurd h (by simp)

/-- What goes wrong: the parser of quantities, or a division by a limit that is converted to
    zero. -/
theorem usagePercent_error {p : Panic} (h : usagePercent metric cm limits = .error p) :
    p = .indexOutOfRange ∨
      ∃ usage limit, Available metric cm limits usage limit ∧ metric.convert limit = 0 := by
  rcases usagePercent_cases metric cm limits with ⟨usage, limit, havail⟩ | hnone | ⟨-, hpanic⟩
  · refine .inr ⟨usage, limit, havail, ?_⟩
    rw [usagePercent_of_available havail] at h
    split_ifs at h with hzero
    exact hzero
  · rw [hnone] at h
    exact absurd h (by simp)
  · rw [hpanic] at h
    exact .inl (Except.error.inj h).symm

end Available

/-- **What goes wrong in `thresholdExceeded`:** the parser of quantities, or the division at a
    configured metric whose limit is not zero but is converted to zero. -/
theorem thresholdExceeded_error {cm : ContainerMetricsItem} {limits : ResourceList}
    {spec : ResourceThresholdSpec} {p : Panic} (h : thresholdExceeded cm limits spec = .error p) :
    p = .indexOutOfRange ∨ ∃ metric usage limit, (metric.threshold spec).isSome = true ∧
      Available metric cm limits usage limit ∧ metric.convert limit = 0 := by
  -- memory and CPU go wrong in the same ways, each if it is configured
  have hmetric : ∀ metric, metricExceeded metric (metric.threshold spec)
      (usagePercent metric cm limits) = .error p → p = .indexOutOfRange ∨
      ∃ usage limit, (metric.threshold spec).isSome = true ∧
        Available metric cm limits usage limit ∧ metric.convert limit = 0 := by
    intro metric hpanic
    unfold metricExceeded at hpanic
    cases hthreshold : metric.threshold spec with
    | none => rw [hthreshold] at hpanic; exact absurd hpanic (by simp)
    | some threshold =>
      rw [hthreshold] at hpanic
      dsimp only at hpanic
      cases hpct : usagePercent metric cm limits with
      | error p' =>
        rw [hpct] at hpanic
        obtain rfl := Except.error.inj hpanic
        exact (usagePercent_error hpct).imp id
          (fun ⟨usage, limit, havail, hzero⟩ => ⟨usage, limit, rfl, havail, hzero⟩)
      | ok pct =>
        rw [hpct] at hpanic
        cases pct <;> exact absurd hpanic (by simp)
  unfold thresholdExceeded at h
  split at h
  · rename_i p' hmemory
    obtain rfl := Except.error.inj h
    exact (hmetric .memory hmemory).imp id (fun hzero => ⟨.memory, hzero⟩)
  · exact absurd h (by simp)
  · exact (hmetric .cpu h).imp id (fun hzero => ⟨.cpu, hzero⟩)

/-! ### Exact percentages -/

/-- The percentage of the exact numbers, rounded down. -/
def exactPercent (metric : Metric) (usage limit : Quantity) : ℤ :=
  100 * usage.ceil metric.digits / limit.ceil metric.digits

/-- **Where nothing overflows, the percentage is exact.** -/
theorem percent_eq_exact (metric : Metric) {usage limit : Quantity} (husage : usage.InRange)
    (hlimit : limit.InRange) (hnn : 0 ≤ usage.asDec.1) (hpos : 0 < limit.asDec.1)
    (hfits : 100 * usage.ceil metric.digits < 2 ^ 63) (hfits' : limit.ceil metric.digits < 2 ^ 63) :
    percent metric usage limit = exactPercent metric usage limit ∧ metric.convert limit ≠ 0 := by
  have hu : 0 ≤ usage.ceil metric.digits := Quantity.ceil_nonneg hnn _
  have hl : 0 < limit.ceil metric.digits := Quantity.ceil_pos hpos _
  unfold percent exactPercent
  rw [metric.convert_eq husage, metric.convert_eq hlimit,
    Quantity.scaled_eq_ceil husage hnn (by omega), Quantity.scaled_eq_ceil hlimit hpos.le hfits']
  refine ⟨?_, hl.ne'⟩
  have hprod : 0 ≤ 100 * usage.ceil metric.digits := by omega
  have hquot := Int.ediv_le_self (limit.ceil metric.digits) hprod
  have hquot₀ := Int.ediv_nonneg hprod hl.le
  rw [mul_comm, wrap64_eq (by omega) hfits, Int.tdiv_eq_ediv_of_nonneg hprod,
    wrap64_eq (by omega) (by omega)]

/-- **Which usages are exact against every limit that fits.** -/
theorem percent_exact_iff (metric : Metric) {usage : Quantity} (husage : usage.InRange)
    (hnn : 0 ≤ usage.asDec.1) :
    (∀ limit : Quantity, limit.InRange → 0 < limit.asDec.1 → limit.ceil metric.digits < 2 ^ 63 →
      percent metric usage limit = exactPercent metric usage limit) ↔
    100 * usage.ceil metric.digits < 2 ^ 63 := by
  refine ⟨fun hexact => ?_, fun hfits limit hlimit hpos hfits' =>
    (percent_eq_exact metric husage hlimit hnn hpos hfits hfits').1⟩
  -- one unit of the last place: its percentage is the product itself
  have hone : (Quantity.int64 1 (-metric.digits)).ceil metric.digits = 1 := by
    rw [Quantity.ceil_eq]
    cases metric <;> rfl
  have hrange : (Quantity.int64 1 (-metric.digits)).InRange := by
    cases metric <;> norm_num [Quantity.InRange, Metric.digits]
  have hunit := hexact _ hrange one_pos (by rw [hone]; norm_num)
  unfold exactPercent at hunit
  rw [hone, Int.ediv_one] at hunit
  rw [← hunit]
  exact (wrap64_bounds _).2

/-! ### Exact thresholds -/

/-- A bound is breached: the upper one is reached, or usage is down to the lower one. -/
def Breaches (threshold : ResourcePercentThreshold) (pct : ℤ) : Prop :=
  (∃ upper, threshold.upper = some upper ∧ upper ≤ pct) ∨
    ∃ lower, threshold.lower = some lower ∧ pct ≤ lower

theorem breach_isSome_iff (metric : Metric) (threshold : ResourcePercentThreshold) (pct : ℤ) :
    (breach metric threshold pct).isSome = true ↔ Breaches threshold pct := by
  have hlower : (lowerBreach metric threshold pct).isSome = true ↔
      ∃ lower, threshold.lower = some lower ∧ pct ≤ lower := by
    unfold lowerBreach
    cases threshold.lower with
    | none => simp
    | some lower => by_cases hle : pct ≤ lower <;> simp [hle]
  unfold breach Breaches
  cases threshold.upper with
  | none => simp [hlower]
  | some upper =>
    by_cases hle : upper ≤ pct
    · simp [hle]
    · simp [hle, hlower]

/-- Usages and limits as the API server and the metrics server give them, and small enough:
    nothing is negative, and neither hundred times the usage nor the limit overflows. -/
structure FitsInt64 (cm : ContainerMetricsItem) (limits : ResourceList) : Prop where
  parses : ∀ (metric : Metric) text, cm.usage.lookup metric.resource = some text →
    parseQuantity text ≠ .error .indexOutOfRange
  valid : ∀ (metric : Metric) limit, limits.lookup metric.resource = some limit →
    limit.InRange ∧ 0 ≤ limit.asDec.1
  nonneg : ∀ metric usage limit, Available metric cm limits usage limit → 0 ≤ usage.asDec.1
  fits : ∀ metric usage limit, Available metric cm limits usage limit →
    100 * usage.ceil metric.digits < 2 ^ 63 ∧ limit.ceil metric.digits < 2 ^ 63

section Exact
variable {cm : ContainerMetricsItem} {limits : ResourceList}

/-- Where everything fits, an available percentage is computed, exactly. -/
theorem FitsInt64.usagePercent (h : FitsInt64 cm limits) {metric : Metric} {usage limit : Quantity}
    (havail : Available metric cm limits usage limit) :
    usagePercent metric cm limits = .ok (some (exactPercent metric usage limit)) := by
  obtain ⟨text, -, hparse⟩ := havail.measured
  obtain ⟨hrange, hnn⟩ := h.valid metric limit havail.limited
  have hpos : 0 < limit.asDec.1 := by
    have hne : limit.asDec.1 ≠ 0 := by
      have hnonzero := havail.nonzero
      cases limit <;> simpa [Quantity.isZero, Quantity.asDec] using hnonzero
    omega
  obtain ⟨hexact, hne⟩ := percent_eq_exact metric (parseQuantity_inRange hparse) hrange
    (h.nonneg metric usage limit havail) hpos (h.fits metric usage limit havail).1
    (h.fits metric usage limit havail).2
  rw [usagePercent_of_available havail, if_neg hne, hexact]

/-- One metric: what it reports is a breach of its exact percentage. -/
theorem FitsInt64.metricExceeded (h : FitsInt64 cm limits) (spec : ResourceThresholdSpec)
    (metric : Metric) :
    ∃ reported, metricExceeded metric (metric.threshold spec)
        (Metered.usagePercent metric cm limits) = .ok reported ∧
      ∀ reason, reported = some reason ↔ ∃ threshold usage limit,
        metric.threshold spec = some threshold ∧ Available metric cm limits usage limit ∧
        breach metric threshold (exactPercent metric usage limit) = some reason := by
  unfold Metered.metricExceeded
  cases hthreshold : metric.threshold spec with
  | none => exact ⟨none, rfl, fun reason => by simp⟩
  | some threshold =>
    dsimp only
    rcases usagePercent_cases metric cm limits with
      ⟨usage, limit, havail⟩ | hnone | ⟨⟨text, htext, hpanic⟩, -⟩
    · rw [h.usagePercent havail]
      refine ⟨breach metric threshold (exactPercent metric usage limit), rfl, fun reason => ?_⟩
      constructor
      · exact fun hreason => ⟨threshold, usage, limit, rfl, havail, hreason⟩
      · rintro ⟨threshold', usage', limit', hthreshold', havail', hreason⟩
        obtain rfl := Option.some.inj hthreshold'
        obtain ⟨rfl, rfl⟩ := havail.unique havail'
        exact hreason
    -- without a percentage nothing is available: what is available has one
    · rw [hnone]
      refine ⟨none, rfl, fun reason => ⟨fun hreason => absurd hreason (by simp), ?_⟩⟩
      rintro ⟨threshold', usage, limit, -, havail, -⟩
      rw [h.usagePercent havail] at hnone
      exact absurd (Except.ok.inj hnone) (by simp)
    · exact absurd hpanic (h.parses metric text htext)

end Exact

/-- **Percentages and thresholds are exact where nothing overflows.**  Every percentage is that
    of the exact numbers; a breach is reported exactly if some configured bound is breached, and
    what is reported is such a breach.  And a usage of which hundred times overflows is wrong
    against some limit that does not. -/
theorem thresholds_exact (cm : ContainerMetricsItem) (limits : ResourceList)
    (spec : ResourceThresholdSpec) (h : FitsInt64 cm limits) :
    (∀ metric pct, usagePercent metric cm limits = .ok (some pct) →
      ∃ usage limit, Available metric cm limits usage limit ∧
        pct = 100 * ⌈usage.toRat * 10 ^ metric.digits⌉ / ⌈limit.toRat * 10 ^ metric.digits⌉) ∧
    ((∃ reason, thresholdExceeded cm limits spec = .ok (some reason)) ↔
      ∃ metric threshold usage limit, metric.threshold spec = some threshold ∧
        Available metric cm limits usage limit ∧
        Breaches threshold (exactPercent metric usage limit)) ∧
    (∀ reason, thresholdExceeded cm limits spec = .ok (some reason) →
      ∃ metric threshold usage limit, metric.threshold spec = some threshold ∧
        Available metric cm limits usage limit ∧
        breach metric threshold (exactPercent metric usage limit) = some reason) ∧
    (∀ (metric : Metric) (usage : Quantity), usage.InRange → 0 ≤ usage.asDec.1 →
      ((∀ limit : Quantity, limit.InRange → 0 < limit.asDec.1 →
        limit.ceil metric.digits < 2 ^ 63 →
        percent metric usage limit = exactPercent metric usage limit) ↔
      100 * usage.ceil metric.digits < 2 ^ 63)) := by
  obtain ⟨memory, hmemory, hmemoryIff⟩ := h.metricExceeded spec .memory
  obtain ⟨cpu, hcpu, hcpuIff⟩ := h.metricExceeded spec .cpu
  -- memory is asked first, and CPU only if memory reports nothing
  have hreport : ∀ reason, thresholdExceeded cm limits spec = .ok (some reason) ↔
      memory = some reason ∨ memory = none ∧ cpu = some reason := by
    intro reason
    unfold thresholdExceeded memoryUsagePercent cpuUsagePercent
    change _ = Except.ok memory at hmemory
    change _ = Except.ok cpu at hcpu
    rw [show spec.memoryPercent = Metric.memory.threshold spec from rfl, hmemory,
      show spec.cpuPercent = Metric.cpu.threshold spec from rfl]
    cases memory with
    | none => rw [hcpu]; simp
    | some text => simp
  refine ⟨fun metric pct hpct => ?_, ⟨?_, ?_⟩, fun reason hreason => ?_,
    fun metric usage husage hnn => percent_exact_iff metric husage hnn⟩
  · obtain ⟨usage, limit, havail, -⟩ := available_of_usagePercent hpct
    rw [h.usagePercent havail] at hpct
    exact ⟨usage, limit, havail, (Option.some.inj (Except.ok.inj hpct)).symm⟩
  · rintro ⟨reason, hreason⟩
    rcases (hreport reason).mp hreason with hmem | ⟨-, hproc⟩
    · obtain ⟨threshold, usage, limit, hthreshold, havail, hbreach⟩ := (hmemoryIff reason).mp hmem
      exact ⟨_, threshold, usage, limit, hthreshold, havail,
        (breach_isSome_iff .memory threshold _).mp (by rw [hbreach]; rfl)⟩
    · obtain ⟨threshold, usage, limit, hthreshold, havail, hbreach⟩ := (hcpuIff reason).mp hproc
      exact ⟨_, threshold, usage, limit, hthreshold, havail,
        (breach_isSome_iff .cpu threshold _).mp (by rw [hbreach]; rfl)⟩
  · rintro ⟨metric, threshold, usage, limit, hthreshold, havail, hbreach⟩
    obtain ⟨reason, hreason⟩ :=
      Option.isSome_iff_exists.mp ((breach_isSome_iff metric threshold _).mpr hbreach)
    cases metric with
    | memory =>
      exact ⟨reason, (hreport reason).mpr (.inl ((hmemoryIff reason).mpr
        ⟨threshold, usage, limit, hthreshold, havail, hreason⟩))⟩
    | cpu =>
      have hproc := (hcpuIff reason).mpr ⟨threshold, usage, limit, hthreshold, havail, hreason⟩
      -- a breach of the CPU bound may be reported as one of memory
      cases hmem : memory with
      | none => exact ⟨reason, (hreport reason).mpr (.inr ⟨hmem, hproc⟩)⟩
      | some first => exact ⟨first, (hreport first).mpr (.inl hmem)⟩
  · rcases (hreport reason).mp hreason with hmem | ⟨-, hproc⟩
    · exact ⟨.memory, (hmemoryIff reason).mp hmem⟩
    · exact ⟨.cpu, (hcpuIff reason).mp hproc⟩

/-- A container with a memory limit that uses some memory. -/
def memoryItem (usage : String) : ContainerMetricsItem where
  name := "web"
  usage := AList.insert "memory" usage ∅

/-- A limit on memory alone. -/
def memoryLimit (limit : Quantity) : ResourceList := AList.insert "memory" limit ∅

theorem lookup_memory {β : Type} (metric : Metric) {x y : β}
    (h : (AList.insert "memory" x ∅ : AList (fun _ : String => β)).lookup metric.resource
      = some y) :
    metric = .memory ∧ y = x := by
  cases metric with
  | memory =>
    rw [Metric.resource, AList.lookup_insert] at h
    exact ⟨rfl, (Option.some.inj h).symm⟩
  | cpu =>
    rw [Metric.resource, AList.lookup_insert_ne (by decide), AList.lookup_empty] at h
    exact absurd h (by simp)

theorem available_memory {text : String} {usage limit usage' limit' : Quantity} {metric : Metric}
    (hparse : parseQuantity text = .ok usage)
    (h : Available metric (memoryItem text) (memoryLimit limit) usage' limit') :
    metric = .memory ∧ usage' = usage ∧ limit' = limit := by
  obtain ⟨⟨text', htext, hparse'⟩, hlimit, -⟩ := h
  obtain ⟨rfl, rfl⟩ := lookup_memory metric htext
  exact ⟨rfl, Except.ok.inj (hparse'.symm.trans hparse), (lookup_memory .memory hlimit).2⟩

/-- 64Mi of 128Mi is a half, and reported as such. -/
theorem thresholds_exact_half :
    ∃ reason, thresholdExceeded (memoryItem "64Mi") (memoryLimit (.int64 (2 ^ 27) 0))
      ⟨none, some ⟨some 50, none⟩, none⟩ = .ok (some reason) := by
  have hparse : parseQuantity "64Mi" = .ok (.int64 (2 ^ 26) 0) := by decide +kernel
  have hceil : ∀ n : ℤ, (Quantity.int64 n 0).ceil Metric.memory.digits = n := by
    intro n
    rw [Quantity.ceil_eq]
    show ceilShift n 0 = n
    simp [ceilShift]
  have hfits : FitsInt64 (memoryItem "64Mi") (memoryLimit (.int64 (2 ^ 27) 0)) := by
    refine ⟨fun metric text htext => ?_, fun metric limit hlimit => ?_,
      fun metric usage limit havail => ?_, fun metric usage limit havail => ?_⟩
    · rw [(lookup_memory metric htext).2, hparse]
      simp
    · obtain ⟨rfl, rfl⟩ := lookup_memory metric hlimit
      exact ⟨by norm_num [Quantity.InRange], by norm_num [Quantity.asDec]⟩
    · obtain ⟨-, rfl, -⟩ := available_memory hparse havail
      norm_num [Quantity.asDec]
    · obtain ⟨rfl, rfl, rfl⟩ := available_memory hparse havail
      rw [hceil, hceil]
      norm_num
  have havail : Available .memory (memoryItem "64Mi") (memoryLimit (.int64 (2 ^ 27) 0))
      (.int64 (2 ^ 26) 0) (.int64 (2 ^ 27) 0) :=
    ⟨⟨"64Mi", by decide, hparse⟩, by decide, by decide⟩
  refine (thresholds_exact _ _ _ hfits).2.1.mpr
    ⟨.memory, ⟨some 50, none⟩, _, _, rfl, havail, .inl ⟨50, rfl, ?_⟩⟩
  rw [exactPercent, hceil, hceil]
  norm_num

/-- A usage of 100P is a tenth of a limit of 1E, and comes out as minus eight percent. -/
theorem percent_overflows :
    memoryUsagePercent (memoryItem "100P") (memoryLimit (.int64 1 18)) = .ok (some (-8)) ∧
    exactPercent .memory (.int64 100 15) (.int64 1 18) = 10 ∧
    parseQuantity "100P" = .ok (.int64 100 15) ∧ parseQuantity "1E" = .ok (.int64 1 18) := by
  refine ⟨by decide +kernel, ?_, by decide +kernel, by decide +kernel⟩
  rw [exactPercent, Quantity.ceil_eq, Quantity.ceil_eq]
  rfl

end CheckpointRestore.Schedule.Metered
