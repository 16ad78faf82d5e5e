import CheckpointRestore.Lib.Strings
import CheckpointRestore.Schedule.ResourceTrigger

namespace CheckpointRestore.Schedule.Metered

open Interaction Go

/-!
# The cooldown of the resource trigger

The trigger remembers when it last checkpointed a container, under the names of the pod and the
container.  The names are those of one namespace; a schedule without a namespace selects pods of
all of them.

* `Clocked` — the clock and the checkpoints that have succeeded, each with its time;
* `Remembers` — what `lastCheckpoint` knows about them; every poll keeps it;
* `Tried` — a container was attempted, or it was cooling down;
* `cooldown_per_container` — checkpoints of a container are five minutes apart, and where names
  tell pods apart no other container is held back.
-/

/-! ### Time -/

/-- The clock, a checkpoint that has just succeeded, and those whose time has been taken. -/
structure Clocked where
  clock : ℤ
  pending : Option PodContainerRef
  done : List (PodContainerRef × ℤ)

/-- The time is taken. -/
def Clocked.tick (s : Clocked) (time : ℤ) : Clocked where
  clock := time
  pending := none
  done := s.done ++ s.pending.toList.map (·, time)

/-- Namespace and name of a pod. -/
def LimitedPod.key (pod : LimitedPod) : String × String := (pod.ns, pod.name)

section World
variable (pods : Set LimitedPod)

/-- What the operations do, over a clock that does not go back.  Lists are of some of the pods, in
    the namespace if there is one; a checkpoint counts from the time that is taken after it. -/
def clockAct : (op : sig.Op) → Clocked → sig.Reply op → Clocked → Prop
  | .listPods ns _, s, r, s' => s' = s ∧
      ∀ listed, (r : Except String (List LimitedPod)) = .ok listed →
        (listed.map LimitedPod.key).Nodup ∧ ∀ pod ∈ listed, pod ∈ pods ∧ (ns = "" ∨ pod.ns = ns)
  | .httpClient, s, _, s' => s' = s
  | .fetchPodMetrics _ _, s, _, s' => s' = s
  | .now _, s, time, s' => s.clock ≤ (time : ℤ) ∧ s' = s.tick time
  | .createCheckpoint ns pod container _, s, r, s' => s' = { s with
      pending := if (r : Except String String).isOk then some ⟨ns, pod, container⟩ else none }

end World

/-! ### What the table remembers -/

/-- The key of a checkpoint. -/
def keyOf (ref : PodContainerRef) : String := cooldownKey ref.pod ref.container

/-- Checkpoints of the same container are five minutes apart. -/
def Spaced (done : List (PodContainerRef × ℤ)) : Prop :=
  done.Pairwise (fun x y => x.1 = y.1 → x.2 + checkpointCooldown ≤ y.2)

/-- The table against the checkpoints that have succeeded: each key has the time of the last of
    its checkpoints, and nothing else is in it. -/
structure Remembers (pods : Set LimitedPod) (ns : String) (last : Cooldowns) (s : Clocked) :
    Prop where
  clock : 0 ≤ s.clock
  pending : s.pending = none
  spaced : Spaced s.done
  past : ∀ x ∈ s.done, x.2 ≤ s.clock
  covers : ∀ x ∈ s.done, ∃ time, last.lookup (keyOf x.1) = some time ∧ x.2 ≤ time
  origin : ∀ key time, last.lookup key = some time →
    ∃ ref, (ref, time) ∈ s.done ∧ keyOf ref = key
  pod : ∀ x ∈ s.done, ∃ pod ∈ pods, pod.ns = x.1.ns ∧ pod.name = x.1.pod ∧ (ns = "" ∨ pod.ns = ns)

/-- The container was attempted, or some container of the same key had been checkpointed less than
    five minutes before its turn. -/
def Tried (done : List (PodContainerRef × ℤ)) (ref : PodContainerRef) (tr : List (Event sig)) :
    Prop :=
  (∃ node r, (⟨.createCheckpoint ref.ns ref.pod ref.container node, r⟩ : Event sig) ∈ tr) ∨
  ∃ (time : ℤ) (x : PodContainerRef × ℤ), (⟨.now ref, time⟩ : Event sig) ∈ tr ∧ x ∈ done ∧
    keyOf x.1 = keyOf ref ∧ x.2 ≤ time ∧ time - x.2 < checkpointCooldown

variable {tr : List (Event sig)}

theorem Tried.mono {done done' : List (PodContainerRef × ℤ)} {ref : PodContainerRef}
    {tr' : List (Event sig)} (h : Tried done ref tr) (hdone : ∀ x ∈ done, x ∈ done')
    (htr : ∀ e ∈ tr, e ∈ tr') : Tried done' ref tr' := by
  rcases h with ⟨node, r, he⟩ | ⟨time, x, he, hx, hkey, hle, hlt⟩
  · exact .inl ⟨node, r, htr _ he⟩
  · exact .inr ⟨time, x, htr _ he, hdone x hx, hkey, hle, hlt⟩

variable {time : ℤ}

/-- A container that is not in the table is not cooling down. -/
theorem cooling_iff {last : Cooldowns} {key : String} (htime : 0 ≤ time) :
    cooling last key time = true ↔
      ∃ t, last.lookup key = some t ∧ since time t < checkpointCooldown := by
  unfold cooling
  cases hlast : last.lookup key with
  | none =>
    -- the zero time is too long ago
    have hlong : ¬ since time zeroTime < checkpointCooldown := by
      unfold since zeroTime checkpointCooldown
      omega
    simp [hlong]
  | some t => simp

theorem since_lt_iff {t : ℤ} (h : t ≤ time) :
    since time t < checkpointCooldown ↔ time - t < checkpointCooldown := by
  unfold since checkpointCooldown
  omega

/-! ### One container -/

variable {pod : LimitedPod} {container : String} {s' : Clocked} {threshold : ResourceThresholdSpec}
  {r : Except Panic Cooldowns}

section Poll
variable {pods : Set LimitedPod} {ns : String} {last : Cooldowns} {s : Clocked}

theorem Remembers.tick_eq (h : Remembers pods ns last s) (time : ℤ) :
    s.tick time = ⟨time, none, s.done⟩ := by
  unfold Clocked.tick
  rw [h.pending]
  simp

/-- Time passes. -/
theorem Remembers.later (h : Remembers pods ns last s) (hle : s.clock ≤ time) :
    Remembers pods ns last (s.tick time) := by
  rw [h.tick_eq]
  exact ⟨h.clock.trans hle, rfl, h.spaced, fun x hx => (h.past x hx).trans hle, h.covers, h.origin,
    h.pod⟩

/-- The time in the table is the past. -/
theorem Remembers.lookup_le (h : Remembers pods ns last s) {key : String}
    (hlast : last.lookup key = some time) : time ≤ s.clock := by
  obtain ⟨ref, href, -⟩ := h.origin key time hlast
  exact h.past _ href

/-- A checkpoint of a container that is not cooling down is recorded. -/
theorem Remembers.record (h : Remembers pods ns last s) (hpod : pod ∈ pods)
    (hns : ns = "" ∨ pod.ns = ns)
    (hcool : cooling last (cooldownKey pod.name container) s.clock = false)
    (hle : s.clock ≤ time) :
    Remembers pods ns (last.insert (cooldownKey pod.name container) time)
      ⟨time, none, s.done ++ [(⟨pod.ns, pod.name, container⟩, time)]⟩ := by
  have hmem : ∀ x, x ∈ s.done ++ [((⟨pod.ns, pod.name, container⟩ : PodContainerRef), time)] →
      x ∈ s.done ∨ x = (⟨pod.ns, pod.name, container⟩, time) := by
    intro x hx
    simpa using hx
  have hpast : ∀ x ∈ s.done, x.2 ≤ time := fun x hx => (h.past x hx).trans hle
  constructor
  · exact h.clock.trans hle
  · rfl
  · -- the table knows of every earlier checkpoint of this container
    refine List.pairwise_append.mpr ⟨h.spaced, List.pairwise_singleton _ _, ?_⟩
    intro x hx y hy hsame
    obtain rfl := List.mem_singleton.mp hy
    obtain ⟨t, ht, hxt⟩ := h.covers x hx
    rw [hsame] at ht
    have hwarm : ¬ since s.clock t < checkpointCooldown := by
      intro hlt
      have hcold : cooling last (cooldownKey pod.name container) s.clock = true :=
        (cooling_iff h.clock).mpr ⟨t, ht, hlt⟩
      rw [hcool] at hcold
      exact absurd hcold (by simp)
    rw [since_lt_iff (h.lookup_le ht)] at hwarm
    show x.2 + checkpointCooldown ≤ time
    omega
  · intro x hx
    rcases hmem x hx with hx | rfl
    · exact hpast x hx
    · exact le_rfl
  · intro x hx
    by_cases hkey : keyOf x.1 = cooldownKey pod.name container
    · refine ⟨time, by rw [hkey, AList.lookup_insert], ?_⟩
      rcases hmem x hx with hx | rfl
      · exact hpast x hx
      · exact le_rfl
    · rcases hmem x hx with hx | rfl
      · rw [AList.lookup_insert_ne hkey]
        exact h.covers x hx
      · exact absurd rfl hkey
  · intro key t ht
    by_cases hkey : key = cooldownKey pod.name container
    · rw [hkey, AList.lookup_insert] at ht
      obtain rfl := Option.some.inj ht
      exact ⟨⟨pod.ns, pod.name, container⟩, by simp, hkey.symm⟩
    · rw [AList.lookup_insert_ne hkey] at ht
      obtain ⟨ref, href, hkey'⟩ := h.origin key t ht
      exact ⟨ref, by simp [href], hkey'⟩
  · intro x hx
    rcases hmem x hx with hx | rfl
    · exact h.pod x hx
    · exact ⟨pod, hpod, rfl, rfl, hns⟩

/-- What a part of a poll does: the table goes on remembering, and no checkpoint is forgotten. -/
structure Keeps (pods : Set LimitedPod) (ns : String) (s : Clocked) (last' : Cooldowns)
    (s' : Clocked) : Prop where
  remembers : Remembers pods ns last' s'
  done : ∀ x ∈ s.done, x ∈ s'.done

/-- **One container** that crosses a threshold is tried. -/
theorem runs_attempt (h : Remembers pods ns last s) (hpod : pod ∈ pods)
    (hns : ns = "" ∨ pod.ns = ns) {last' : Cooldowns}
    (hruns : Runs (clockAct pods) (attempt pod container last) s tr last' s') :
    Keeps pods ns s last' s' ∧ Tried s'.done ⟨pod.ns, pod.name, container⟩ tr := by
  unfold attempt at hruns
  obtain ⟨(time : ℤ), tr₂, s₁, rfl, ⟨hle, rfl⟩, hrest⟩ := hruns.of_call
  have hlater := h.later hle
  have hclock : (s.tick time).clock = time := rfl
  have hdone : (s.tick time).done = s.done := by rw [h.tick_eq]
  cases hcool : cooling last (cooldownKey pod.name container) time with
  | true =>
    rw [hcool] at hrest
    obtain ⟨rfl, rfl, rfl⟩ := Runs.of_pure hrest
    refine ⟨⟨hlater, fun x hx => hdone ▸ hx⟩, .inr ?_⟩
    -- the table holds the time of a checkpoint of some container with this key
    obtain ⟨t, ht, hlt⟩ := (cooling_iff (h.clock.trans hle)).mp hcool
    obtain ⟨ref, href, hkey⟩ := h.origin _ _ ht
    have hpast : t ≤ time := (h.lookup_le ht).trans hle
    exact ⟨time, (ref, t), by simp, hdone ▸ href, hkey, hpast, (since_lt_iff hpast).mp hlt⟩
  | false =>
    rw [hcool] at hrest
    unfold checkpoint at hrest
    obtain ⟨r, tr₄, s₂, rfl, rfl, hlast⟩ := hrest.of_call
    -- whatever comes of it, the container is tried
    have htried : ∀ tr', Tried s'.done ⟨pod.ns, pod.name, container⟩
        ([⟨Op.now ⟨pod.ns, pod.name, container⟩, time⟩] ++
          ([⟨Op.createCheckpoint pod.ns pod.name container pod.nodeName, r⟩] ++ tr')) :=
      fun tr' => .inl ⟨pod.nodeName, r, by simp⟩
    refine ⟨?_, htried tr₄⟩
    cases hr : (r : Except String String) with
    | error e =>
      rw [hr] at hlast
      obtain ⟨-, rfl, rfl⟩ := Runs.of_pure hlast
      rw [h.tick_eq] at hlater ⊢
      exact ⟨hlater, fun x hx => hx⟩
    | ok path =>
      rw [hr] at hlast
      obtain ⟨(time' : ℤ), tr₆, s₃, rfl, ⟨hle', rfl⟩, hpure⟩ := hlast.of_call
      obtain ⟨-, rfl, rfl⟩ := Runs.of_pure hpure
      -- the time that is recorded is read after the checkpoint, not the one that was compared
      have hrecord := hlater.record hpod hns hcool hle'
      rw [hdone] at hrecord
      have hstate : Clocked.tick { s.tick time with
            pending := if (Except.ok path : Except String String).isOk then
              some ⟨pod.ns, pod.name, container⟩ else none } time'
          = ⟨time', none, s.done ++ [(⟨pod.ns, pod.name, container⟩, time')]⟩ := by
        rw [h.tick_eq]
        rfl
      rw [hstate]
      exact ⟨hrecord, fun x hx => by simp [hx]⟩

/-! ### One poll -/

theorem Keeps.trans {s₁ s₂ : Clocked} {last₁ last₂ : Cooldowns} (h : Keeps pods ns s last₁ s₁)
    (h' : Keeps pods ns s₁ last₂ s₂) : Keeps pods ns s last₂ s₂ :=
  ⟨h'.remembers, fun x hx => h'.done x (h.done x hx)⟩

/-- A metric of a selected container that crosses a threshold. -/
def Crosses (threshold : ResourceThresholdSpec) (limits : AList (fun _ : String => ResourceList))
    (cm : ContainerMetricsItem) : Prop :=
  ∃ containerLimits reason, limits.lookup cm.name = some containerLimits ∧
    thresholdExceeded cm containerLimits threshold = .ok (some reason)

/-- The loop over the metrics of a pod tries every container that crosses a threshold. -/
theorem runs_checkItems
    {limits : AList (fun _ : String => ResourceList)} (hpod : pod ∈ pods)
    (hns : ns = "" ∨ pod.ns = ns) {items : List ContainerMetricsItem}
    (h : Remembers pods ns last s)
    (hruns : Runs (clockAct pods) (checkItems threshold pod limits last items) s tr r s') :
    ∃ last₁, Keeps pods ns s last₁ s' ∧ ∀ last', r = .ok last' → last' = last₁ ∧
      ∀ cm ∈ items, Crosses threshold limits cm →
        Tried s'.done ⟨pod.ns, pod.name, cm.name⟩ tr := by
  induction items generalizing last s tr with
  | nil =>
    obtain ⟨rfl, rfl, rfl⟩ := Runs.of_pure hruns
    exact ⟨last, ⟨h, fun x hx => hx⟩, fun last' hr => ⟨(Except.ok.inj hr).symm, by simp⟩⟩
  | cons cm items ih =>
    unfold checkItems at hruns
    -- a container that crosses no threshold is passed over
    have hskip : ∀ {tr : List (Event sig)}, ¬ Crosses threshold limits cm →
        Runs (clockAct pods) (checkItems threshold pod limits last items) s tr r s' →
        ∃ last₁, Keeps pods ns s last₁ s' ∧ ∀ last', r = .ok last' → last' = last₁ ∧
          ∀ cm' ∈ cm :: items, Crosses threshold limits cm' →
            Tried s'.done ⟨pod.ns, pod.name, cm'.name⟩ tr := by
      intro tr hnot hrest
      obtain ⟨last₁, hkeeps, hall⟩ := ih h hrest
      refine ⟨last₁, hkeeps, fun last' hr => ⟨(hall last' hr).1, fun cm' hcm' hcross => ?_⟩⟩
      rcases List.mem_cons.mp hcm' with rfl | hcm'
      · exact absurd hcross hnot
      · exact (hall last' hr).2 cm' hcm' hcross
    cases hlimits : limits.lookup cm.name with
    | none =>
      rw [hlimits] at hruns
      refine hskip ?_ hruns
      rintro ⟨l, reason, hl, -⟩
      exact absurd (hlimits.symm.trans hl) (by simp)
    | some containerLimits =>
      rw [hlimits] at hruns
      dsimp only at hruns
      cases hexceeded : thresholdExceeded cm containerLimits threshold with
      | error p =>
        rw [hexceeded] at hruns
        obtain ⟨rfl, rfl, rfl⟩ := Runs.of_pure hruns
        exact ⟨last, ⟨h, fun x hx => hx⟩, fun last' hr => absurd hr (by simp)⟩
      | ok reason =>
        rw [hexceeded] at hruns
        cases reason with
        | none =>
          refine hskip ?_ hruns
          rintro ⟨l, reason, hl, hr⟩
          obtain rfl := Option.some.inj (hlimits.symm.trans hl)
          exact absurd (Except.ok.inj (hexceeded.symm.trans hr)) (by simp)
        | some reason =>
          obtain ⟨tr₁, tr₂, last₂, s₂, rfl, hattempt, hrest⟩ := Runs.of_bind hruns
          obtain ⟨hkeeps, htried⟩ := runs_attempt h hpod hns hattempt
          obtain ⟨last₁, hkeeps', hall⟩ := ih hkeeps.remembers hrest
          refine ⟨last₁, hkeeps.trans hkeeps', fun last' hr => ⟨(hall last' hr).1, ?_⟩⟩
          intro cm' hcm' hcross
          rcases List.mem_cons.mp hcm' with rfl | hcm'
          · exact htried.mono hkeeps'.done (fun e he => List.mem_append_left _ he)
          · exact ((hall last' hr).2 cm' hcm' hcross).mono (fun x hx => hx)
              (fun e he => List.mem_append_right _ he)

/-- The operations of an attempt. -/
def acts : sig.Op → Bool
  | .now _ => true
  | .createCheckpoint _ _ _ _ => true
  | _ => false

theorem issues_attempt (pod : LimitedPod) (container : String) (last : Cooldowns) :
    Issues (fun op => acts op = true) (attempt pod container last) := by
  have hcheckpoint : Issues (fun op => acts op = true) (checkpoint pod container last) := by
    unfold checkpoint
    refine Issues.bind (Issues.perform rfl) (fun (r : Except String String) => ?_)
    cases r with
    | error e => exact Issues.pure _
    | ok path => exact Issues.bind (Issues.perform rfl) (fun _ => Issues.pure _)
  unfold attempt
  refine Issues.bind (Issues.perform rfl) (fun time => ?_)
  split
  · exact Issues.pure _
  · exact hcheckpoint

theorem issues_checkItems (threshold : ResourceThresholdSpec) (pod : LimitedPod)
    (limits : AList (fun _ : String => ResourceList)) (items : List ContainerMetricsItem)
    (last : Cooldowns) :
    Issues (fun op => acts op = true) (checkItems threshold pod limits last items) := by
  induction items generalizing last with
  | nil => exact Issues.pure _
  | cons cm items ih =>
    unfold checkItems
    split
    · exact ih last
    · split
      · exact Issues.pure _
      · exact ih last
      · exact Issues.bind (issues_attempt pod cm.name last) ih

/-- The containers of the pod that cross a threshold, by the metrics that were fetched. -/
def Handled (containerNames : List String) (threshold : ResourceThresholdSpec)
    (done : List (PodContainerRef × ℤ)) (tr : List (Event sig)) (pod : LimitedPod) : Prop :=
  ∀ items : List ContainerMetricsItem,
    (⟨.fetchPodMetrics pod.ns pod.name, (.ok items : Except String _)⟩ : Event sig) ∈ tr →
    ∀ cm ∈ items, Crosses threshold (limitsByName (filterContainers pod containerNames)) cm →
      Tried done ⟨pod.ns, pod.name, cm.name⟩ tr

/-- One pod: its metrics alone are fetched, and its containers are tried. -/
theorem runs_handlePod {containerNames : List String} (hpod : pod ∈ pods)
    (hns : ns = "" ∨ pod.ns = ns)
    (h : Remembers pods ns last s)
    (hruns : Runs (clockAct pods) (handlePod containerNames threshold pod last) s tr r s') :
    (∃ last₁, Keeps pods ns s last₁ s' ∧ ∀ last', r = .ok last' → last' = last₁ ∧
      Handled containerNames threshold s'.done tr pod) ∧
    ∀ e ∈ tr, acts e.op = true ∨ e.op = .fetchPodMetrics pod.ns pod.name := by
  unfold handlePod at hruns
  obtain ⟨reply, tr₂, s₁, rfl, rfl, hrest⟩ := hruns.of_call
  have hown : ∀ e ∈ tr₂, acts e.op = true := by
    cases hreply : (reply : Except String (List ContainerMetricsItem)) with
    | error e =>
      rw [hreply] at hrest
      exact Issues.of_runs (P := fun op => acts op = true) (Issues.pure _) hrest
    | ok items =>
      rw [hreply] at hrest
      exact (issues_checkItems _ _ _ _ _).of_runs hrest
  refine ⟨?_, fun e he => ?_⟩
  · -- the only fetch is the first operation
    have hitems : ∀ items : List ContainerMetricsItem,
        (⟨.fetchPodMetrics pod.ns pod.name, (.ok items : Except String _)⟩ : Event sig)
          ∈ [(⟨.fetchPodMetrics pod.ns pod.name, reply⟩ : Event sig)] ++ tr₂ →
        (reply : Except String (List ContainerMetricsItem)) = .ok items := by
      intro items hmem
      rcases List.mem_append.mp hmem with hmem | hmem
      · exact (eq_of_heq (Event.mk.inj (List.mem_singleton.mp hmem)).2).symm
      · exact absurd (hown _ hmem) (by simp [acts])
    cases hreply : (reply : Except String (List ContainerMetricsItem)) with
    | error e =>
      rw [hreply] at hrest hitems
      obtain ⟨rfl, rfl, rfl⟩ := Runs.of_pure hrest
      refine ⟨last, ⟨h, fun x hx => hx⟩, fun last' hr => ⟨(Except.ok.inj hr).symm, ?_⟩⟩
      intro items hmem
      exact absurd (hitems items hmem) (by simp)
    | ok fetchedItems =>
      rw [hreply] at hrest hitems
      obtain ⟨last₁, hkeeps, hall⟩ := runs_checkItems hpod hns h hrest
      refine ⟨last₁, hkeeps,
        fun last' hr => ⟨(hall last' hr).1, fun items hmem cm hcm hcross => ?_⟩⟩
      obtain rfl := Except.ok.inj (hitems items hmem)
      exact ((hall last' hr).2 cm hcm hcross).mono (fun x hx => hx)
        (fun e he => List.mem_append_right _ he)
  · rcases List.mem_append.mp he with he | he
    · exact .inr (by rw [List.mem_singleton.mp he])
    · exact .inl (hown e he)

/-- The loop over the pods. -/
theorem runs_handlePods {containerNames : List String}
    {listed : List LimitedPod} (hkeys : (listed.map LimitedPod.key).Nodup)
    (hlisted : ∀ pod ∈ listed, pod ∈ pods ∧ (ns = "" ∨ pod.ns = ns))
    (h : Remembers pods ns last s)
    (hruns : Runs (clockAct pods) (handlePods containerNames threshold last listed) s tr r s') :
    (∃ last₁, Keeps pods ns s last₁ s' ∧ ∀ last', r = .ok last' → last' = last₁ ∧
      ∀ pod ∈ listed, Handled containerNames threshold s'.done tr pod) ∧
    ∀ e ∈ tr, acts e.op = true ∨ ∃ pod ∈ listed, e.op = .fetchPodMetrics pod.ns pod.name := by
  induction listed generalizing last s tr with
  | nil =>
    obtain ⟨rfl, rfl, rfl⟩ := Runs.of_pure hruns
    exact ⟨⟨last, ⟨h, fun x hx => hx⟩, fun last' hr => ⟨(Except.ok.inj hr).symm, by simp⟩⟩, by simp⟩
  | cons pod listed ih =>
    unfold handlePods at hruns
    obtain ⟨tr₁, tr₂, r₁, s₁, rfl, hfirst, hrest⟩ := hruns.of_bind
    obtain ⟨hpod, hns⟩ := hlisted pod (by simp)
    obtain ⟨⟨last₁, hkeeps, hhandled⟩, hown⟩ := runs_handlePod hpod hns h hfirst
    rw [List.map_cons, List.nodup_cons] at hkeys
    cases r₁ with
    | error p =>
      obtain ⟨rfl, rfl, rfl⟩ := Runs.of_pure hrest
      refine ⟨⟨last₁, hkeeps, fun last' hr => absurd hr (by simp)⟩, fun e he => ?_⟩
      rw [List.append_nil] at he
      exact (hown e he).imp id (fun hop => ⟨pod, by simp, hop⟩)
    | ok last₂ =>
      obtain ⟨rfl, hpodHandled⟩ := hhandled last₂ rfl
      obtain ⟨⟨last₃, hkeeps', hall⟩, hrestOps⟩ := ih hkeys.2
        (fun pod' hpod' => hlisted pod' (by simp [hpod'])) hkeeps.remembers hrest
      refine ⟨⟨last₃, hkeeps.trans hkeeps', fun last' hr => ⟨(hall last' hr).1, ?_⟩⟩, ?_⟩
      · intro pod' hpod' items hmem cm hcm hcross
        rcases List.mem_cons.mp hpod' with rfl | hpod'
        · -- its metrics are not fetched again
          have hmem₁ := (List.mem_append.mp hmem).resolve_right (fun hlater => by
            rcases hrestOps _ hlater with hacts | ⟨other, hother, hop⟩
            · exact absurd hacts (by simp [acts])
            · injection hop with hns' hname'
              exact hkeys.1 (List.mem_map.mpr ⟨other, hother, by
                rw [LimitedPod.key, LimitedPod.key, hns', hname']⟩))
          exact (hpodHandled items hmem₁ cm hcm hcross).mono hkeeps'.done
            (fun e he => List.mem_append_left _ he)
        · -- and no other pod's were fetched before
          have hmem₂ := (List.mem_append.mp hmem).resolve_left (fun hearlier => by
            rcases hown _ hearlier with hacts | hop
            · exact absurd hacts (by simp [acts])
            · injection hop with hns' hname'
              exact hkeys.1 (List.mem_map.mpr ⟨pod', hpod', by
                rw [LimitedPod.key, LimitedPod.key, hns', hname']⟩))
          exact ((hall last' hr).2 pod' hpod' items hmem₂ cm hcm hcross).mono (fun x hx => hx)
            (fun e he => List.mem_append_right _ he)
      · intro e he
        rcases List.mem_append.mp he with he | he
        · exact (hown e he).imp id (fun hop => ⟨pod, by simp, hop⟩)
        · rcases hrestOps e he with hacts | ⟨p, hp, hop⟩
          · exact .inl hacts
          · exact .inr ⟨p, List.mem_cons_of_mem _ hp, hop⟩

/-- What a poll owes: every selected container that crosses a threshold is tried. -/
def Owes (spec : Spec) (done : List (PodContainerRef × ℤ)) (tr : List (Event sig)) : Prop :=
  ∀ threshold, spec.triggers.resourceThreshold = some threshold →
    ∀ listed : List LimitedPod,
      (⟨.listPods spec.ns spec.selector, (.ok listed : Except String _)⟩ : Event sig) ∈ tr →
      ∀ pod ∈ listed, pod.running = true → Handled spec.containerNames threshold done tr pod

/-- `getMatchingPods` lists once, and the pods it returns are running. -/
theorem runs_getMatchingPods {selector : String} {r : Except String (List LimitedPod)}
    (hruns : Runs (clockAct pods) (getMatchingPods ns selector) s tr r s') : s' = s ∧
      ((∃ e, tr = [⟨.listPods ns selector, (.error e : Except String _)⟩] ∧ r = .error e) ∨
      ∃ listed : List LimitedPod, tr = [⟨.listPods ns selector, (.ok listed : Except String _)⟩] ∧
        r = .ok (listed.filter (fun pod => pod.running)) ∧
        (listed.map LimitedPod.key).Nodup ∧
        ∀ pod ∈ listed, pod ∈ pods ∧ (ns = "" ∨ pod.ns = ns)) := by
  unfold getMatchingPods at hruns
  obtain ⟨listing, tr₂, s₁, rfl, ⟨rfl, hlisting⟩, hfilter⟩ := hruns.of_call
  cases hr : (listing : Except String (List LimitedPod)) with
  | error e =>
    rw [hr] at hfilter
    obtain ⟨rfl, rfl, rfl⟩ := Runs.of_pure hfilter
    exact ⟨rfl, .inl ⟨e, rfl, rfl⟩⟩
  | ok listed =>
    rw [hr] at hfilter
    obtain ⟨rfl, rfl, rfl⟩ := Runs.of_pure hfilter
    exact ⟨rfl, .inr ⟨listed, rfl, rfl, hlisting listed hr⟩⟩

/-- **One poll.** -/
theorem runs_run {spec : Spec} (h : Remembers pods spec.ns last s)
    (hruns : Runs (clockAct pods) (run spec last) s tr r s') :
    ∃ last₁, Keeps pods spec.ns s last₁ s' ∧ ∀ last', r = .ok last' →
      last' = last₁ ∧ Owes spec s'.done tr := by
  have hmem_cases : ∀ {e first second : Event sig} {tr : List (Event sig)},
      e ∈ [first] ++ ([second] ++ tr) → e = first ∨ e = second ∨ e ∈ tr :=
    fun h => by simpa using h
  unfold run at hruns
  cases hthreshold : spec.triggers.resourceThreshold with
  | none =>
    rw [hthreshold] at hruns
    obtain ⟨rfl, rfl, rfl⟩ := Runs.of_pure hruns
    exact ⟨last, ⟨h, fun x hx => hx⟩, fun last' hr => ⟨(Except.ok.inj hr).symm,
      fun threshold hsome => absurd (hthreshold.symm.trans hsome) (by simp)⟩⟩
  | some threshold =>
    rw [hthreshold] at hruns
    dsimp only at hruns
    obtain ⟨tr₁, tr₂, reply, s₁, rfl, hmatching, hrest⟩ := hruns.of_bind
    rcases runs_getMatchingPods hmatching with
      ⟨rfl, ⟨e, rfl, rfl⟩ | ⟨listed, rfl, rfl, hkeys, hmembers⟩⟩
    · -- without a list of pods there is nothing to do
      obtain ⟨rfl, rfl, rfl⟩ := Runs.of_pure hrest
      refine ⟨last, ⟨h, fun x hx => hx⟩, fun last' hok => ⟨(Except.ok.inj hok).symm, ?_⟩⟩
      intro _ _ listed hmem
      have heq : (⟨.listPods spec.ns spec.selector, (.ok listed : Except String _)⟩ : Event sig)
          = ⟨.listPods spec.ns spec.selector, (.error e : Except String _)⟩ := by simpa using hmem
      exact absurd (eq_of_heq (Event.mk.inj heq).2) (by simp)
    · obtain ⟨client, tr₆, s₃, rfl, rfl, hpods⟩ := hrest.of_call
      cases hc : (client : Except String Unit) with
      | error e =>
        rw [hc] at hpods
        obtain ⟨rfl, rfl, rfl⟩ := Runs.of_pure hpods
        refine ⟨last, ⟨h, fun x hx => hx⟩, fun last' hok => ⟨(Except.ok.inj hok).symm, ?_⟩⟩
        intro _ _ _ _ pod _ _ items hmem
        rcases hmem_cases hmem with heq | heq | hnil
        · exact absurd (congrArg Event.op heq) (by simp)
        · exact absurd (congrArg Event.op heq) (by simp)
        · exact absurd hnil (by simp)
      | ok u =>
        rw [hc] at hpods
        have hkeys' : ((listed.filter (fun pod => pod.running)).map LimitedPod.key).Nodup :=
          hkeys.sublist (List.filter_sublist.map _)
        obtain ⟨⟨last₁, hkeeps, hall⟩, hops⟩ := runs_handlePods hkeys'
          (fun pod hpod => hmembers pod (List.mem_filter.mp hpod).1) h hpods
        refine ⟨last₁, hkeeps, fun last' hok => ⟨(hall last' hok).1, ?_⟩⟩
        intro threshold' hthreshold' listed' hmem pod hpod hrunning items hfetch cm hcm hcross
        obtain rfl := Option.some.inj (hthreshold.symm.trans hthreshold')
        -- the pods that were listed are those that the loop goes over
        have hsame : listed' = listed := by
          rcases hmem_cases hmem with heq | heq | hlater
          · exact Except.ok.inj (eq_of_heq (Event.mk.inj heq).2)
          · exact absurd (congrArg Event.op heq) (by simp)
          · rcases hops _ hlater with hacts | ⟨_, _, hop⟩
            · exact absurd hacts (by simp [acts])
            · exact absurd hop (by simp)
        rw [hsame] at hpod
        have hfetch' : (⟨.fetchPodMetrics pod.ns pod.name, (.ok items : Except String _)⟩
            : Event sig) ∈ tr₆ := by
          rcases hmem_cases hfetch with heq | heq | hlater
          · exact absurd (congrArg Event.op heq) (by simp)
          · exact absurd (congrArg Event.op heq) (by simp)
          · exact hlater
        exact ((hall last' hok).2 pod (List.mem_filter.mpr ⟨hpod, hrunning⟩) items hfetch' cm hcm
          hcross).mono (fun x hx => hx) (fun e he => by simp [he])

/-- Any number of polls. -/
theorem runs_polls {spec : Spec} {n : ℕ} (h : Remembers pods spec.ns last s)
    (hruns : Runs (clockAct pods) (polls spec n last) s tr r s') :
    ∃ last₁, Keeps pods spec.ns s last₁ s' ∧ ∀ last', r = .ok last' → last' = last₁ := by
  induction n generalizing last s tr with
  | zero =>
    obtain ⟨rfl, rfl, rfl⟩ := Runs.of_pure hruns
    exact ⟨last, ⟨h, fun x hx => hx⟩, fun last' hr => (Except.ok.inj hr).symm⟩
  | succ n ih =>
    unfold polls at hruns
    obtain ⟨tr₁, tr₂, r₁, s₁, rfl, hfirst, hrest⟩ := hruns.of_bind
    obtain ⟨last₁, hkeeps, hok⟩ := runs_run h hfirst
    cases r₁ with
    | error p =>
      obtain ⟨rfl, rfl, rfl⟩ := Runs.of_pure hrest
      exact ⟨last₁, hkeeps, fun last' hr => absurd hr (by simp)⟩
    | ok last₂ =>
      obtain ⟨rfl, -⟩ := hok last₂ rfl
      obtain ⟨last₃, hkeeps', hok'⟩ := ih hkeeps.remembers hrest
      exact ⟨last₃, hkeeps.trans hkeeps', hok'⟩

end Poll

/-! ### Every run -/

/-- Names tell the selected pods apart: they are of one namespace, or no two namespaces have pods
    of the same name. -/
def TellsApart (pods : Set LimitedPod) (ns : String) : Prop :=
  ns ≠ "" ∨ ∀ p ∈ pods, ∀ q ∈ pods, p.name = q.name → p.ns = q.ns

/-- The container was attempted, or it had itself been checkpointed less than five minutes before
    its turn. -/
def AttemptedOrRecent (done : List (PodContainerRef × ℤ)) (ref : PodContainerRef)
    (tr : List (Event sig)) : Prop :=
  (∃ node r, (⟨.createCheckpoint ref.ns ref.pod ref.container node, r⟩ : Event sig) ∈ tr) ∨
  ∃ time t : ℤ, (⟨.now ref, time⟩ : Event sig) ∈ tr ∧ (ref, t) ∈ done ∧ t ≤ time ∧
    time - t < checkpointCooldown

theorem keyOf_inj {x y : PodContainerRef} (hx : '/' ∉ x.pod.toList) (hy : '/' ∉ y.pod.toList)
    (h : keyOf x = keyOf y) : x.pod = y.pod ∧ x.container = y.container := by
  have hlists : ∀ ref : PodContainerRef,
      (keyOf ref).toList = ref.pod.toList ++ '/' :: ref.container.toList := by
    intro ref
    unfold keyOf cooldownKey
    rw [String.toList_append, String.toList_append, List.append_assoc]
    rfl
  have heq := congrArg String.toList h
  rw [hlists, hlists, Strings.append_sep_inj hx hy] at heq
  exact ⟨String.toList_inj.mp heq.1, String.toList_inj.mp heq.2⟩

/-- Where names tell the pods apart, a container is held back by its own checkpoints only. -/
theorem Tried.own {pods : Set LimitedPod} {ns : String} {last : Cooldowns} {s : Clocked}
    (h : Remembers pods ns last s) (hnames : ∀ pod ∈ pods, '/' ∉ pod.name.toList)
    (happart : TellsApart pods ns) (hpod : pod ∈ pods)
    (hns : ns = "" ∨ pod.ns = ns)
    (htried : Tried s.done ⟨pod.ns, pod.name, container⟩ tr) :
    AttemptedOrRecent s.done ⟨pod.ns, pod.name, container⟩ tr := by
  rcases htried with hattempt | ⟨time, x, hnow, hx, hkey, hle, hlt⟩
  · exact .inl hattempt
  · obtain ⟨p, hp, hpns, hpname, hpns'⟩ := h.pod x hx
    obtain ⟨hname, hcontainer⟩ := keyOf_inj (hpname ▸ hnames p hp) (hnames pod hpod) hkey
    have hsamens : p.ns = pod.ns := by
      rcases happart with hset | hdistinct
      · rw [hpns'.resolve_left hset, hns.resolve_left hset]
      · exact hdistinct p hp pod hpod (hpname.trans hname)
    have href : x.1 = ⟨pod.ns, pod.name, container⟩ := by
      show (⟨x.1.ns, x.1.pod, x.1.container⟩ : PodContainerRef) = _
      rw [← hpns, hsamens]
      exact congrArg₂ _ hname hcontainer
    exact .inr ⟨time, x.2, hnow, href ▸ hx, hle, hlt⟩

/-- **The cooldown.**  After any number of polls and one more, over a clock that does not go back:
    the checkpoints of each container are five minutes apart; and where names tell the selected
    pods apart, every selected container that crosses a threshold in that poll is attempted,
    unless it was itself checkpointed less than five minutes before. -/
theorem cooldown_per_container {pods : Set LimitedPod}
    (hnames : ∀ pod ∈ pods, '/' ∉ pod.name.toList) (spec : Spec) {n : ℕ} {s₀ s s' : Clocked}
    (hclock : 0 ≤ s₀.clock) (hstart : s₀.pending = none ∧ s₀.done = []) {tr₀ : List (Event sig)}
    {last : Cooldowns} (hpolls : Runs (clockAct pods) (polls spec n ∅) s₀ tr₀ (.ok last) s)
    {tr : List (Event sig)} {r : Except Panic Cooldowns}
    (hpoll : Runs (clockAct pods) (run spec last) s tr r s') :
    Spaced s'.done ∧
    (TellsApart pods spec.ns → ∀ last', r = .ok last' →
      ∀ threshold, spec.triggers.resourceThreshold = some threshold →
      ∀ listed : List LimitedPod,
        (⟨.listPods spec.ns spec.selector, (.ok listed : Except String _)⟩ : Event sig) ∈ tr →
      ∀ pod ∈ listed, pod.running = true → ∀ items : List ContainerMetricsItem,
        (⟨.fetchPodMetrics pod.ns pod.name, (.ok items : Except String _)⟩ : Event sig) ∈ tr →
      ∀ cm ∈ items,
        Crosses threshold (limitsByName (filterContainers pod spec.containerNames)) cm →
        AttemptedOrRecent s'.done ⟨pod.ns, pod.name, cm.name⟩ tr) := by
  have hinitial : Remembers pods spec.ns ∅ s₀ := by
    obtain ⟨hpending, hdone⟩ := hstart
    refine ⟨hclock, hpending, ?_, ?_, ?_, fun key time h => absurd h (by simp), ?_⟩
    · rw [hdone]
      exact List.Pairwise.nil
    all_goals
      rw [hdone]
      exact fun x hx => absurd hx List.not_mem_nil
  obtain ⟨last₁, hkeeps, hlast⟩ := runs_polls hinitial hpolls
  obtain rfl := hlast last rfl
  obtain ⟨last₂, hkeeps', howes⟩ := runs_run hkeeps.remembers hpoll
  refine ⟨hkeeps'.remembers.spaced, ?_⟩
  intro happart last' hr threshold hthreshold listed hlist pod hpod hrunning items hfetch cm hcm
    hcross
  -- the pods that are listed are those that exist
  obtain ⟨_, _, -, hlisted⟩ := hpoll.act_of_mem _ hlist
  obtain ⟨hmem, hns⟩ := (hlisted listed rfl).2 pod hpod
  have htried := (howes last' hr).2 threshold hthreshold listed hlist pod hpod hrunning items hfetch
    cm hcm hcross
  exact htried.own hkeeps'.remembers hnames happart hmem hns

/-! ### Two pods -/

/-- A world where the clock is so much further at each reading, all these pods use the same and
    every checkpoint succeeds. -/
def clockwork (step : ℤ) (pods : List LimitedPod) (item : ContainerMetricsItem) :
    (op : sig.Op) → Clocked → sig.Reply op × Clocked
  | .listPods ns _, s =>
    ((.ok (pods.filter (fun pod => ns == "" || pod.ns == ns)) : Except String (List LimitedPod)), s)
  | .httpClient, s => ((.ok () : Except String Unit), s)
  | .fetchPodMetrics _ _, s => ((.ok [item] : Except String (List ContainerMetricsItem)), s)
  | .now _, s => (s.clock + step, s.tick (s.clock + step))
  | .createCheckpoint ns pod container _, s =>
    ((.ok "archive" : Except String String), { s with pending := some ⟨ns, pod, container⟩ })

theorem clockwork_act {step : ℤ} (hstep : 0 ≤ step) {pods : List LimitedPod}
    (hkeys : (pods.map LimitedPod.key).Nodup) (item : ContainerMetricsItem) (op : sig.Op)
    (s : Clocked) : clockAct {pod | pod ∈ pods} op s (clockwork step pods item op s).1
      (clockwork step pods item op s).2 := by
  cases op with
  | listPods ns selector =>
    refine ⟨rfl, fun listed hlisted => ?_⟩
    obtain rfl := Except.ok.inj hlisted
    refine ⟨hkeys.sublist (List.filter_sublist.map _), fun pod hpod => ?_⟩
    obtain ⟨hmem, hns⟩ := List.mem_filter.mp hpod
    exact ⟨hmem, by simpa using hns⟩
  | httpClient => rfl
  | fetchPodMetrics ns pod => rfl
  | now turn => exact ⟨le_add_of_nonneg_right hstep, rfl⟩
  | createCheckpoint ns pod container node => rfl

/-- The start of the year 1970. -/
def Clocked.start : Clocked := ⟨0, none, []⟩

/-- The container a checkpoint is attempted of. -/
def attemptedRef : Event sig → Option PodContainerRef
  | ⟨.createCheckpoint ns pod container _, _⟩ => some ⟨ns, pod, container⟩
  | _ => none

/-- The pod whose metrics are fetched. -/
def fetchedPod : Event sig → Option (String × String)
  | ⟨.fetchPodMetrics ns pod, _⟩ => some (ns, pod)
  | _ => none

theorem mem_of_fetchedPod {step : ℤ} {pods : List LimitedPod} {item : ContainerMetricsItem}
    {α : Type} {p : Prog sig α} {s : Clocked} {ns pod : String}
    (h : (ns, pod) ∈ (trace (clockwork step pods item) p s).filterMap fetchedPod) :
    (⟨.fetchPodMetrics ns pod, (.ok [item] : Except String _)⟩ : Event sig) ∈
      trace (clockwork step pods item) p s := by
  obtain ⟨e, he, hpod⟩ := List.mem_filterMap.mp h
  have hreply : ∀ e ∈ trace (clockwork step pods item) p s, fetchedPod e = some (ns, pod) →
      e = ⟨.fetchPodMetrics ns pod, (.ok [item] : Except String _)⟩ := by
    refine forall_mem_trace (fun op s hpod => ?_) p s
    cases op with
    | fetchPodMetrics ns' pod' =>
      cases hpod
      rfl
    | _ => cases hpod
  rw [← hreply e he hpod]
  exact he

theorem exists_ok {ε α : Type} {r : Except ε α} (h : r.isOk = true) : ∃ a, r = .ok a := by
  cases r with
  | error e => exact absurd h (by simp [Except.isOk, Except.toBool])
  | ok a => exact ⟨a, rfl⟩

/-- Two pods of different names, in two namespaces. -/
def webAndApi : List LimitedPod :=
  [webPod "a" (.int64 (2 ^ 27) 0), { webPod "b" (.int64 (2 ^ 27) 0) with name := "api" }]

/-- The clock is a minute further at each reading. -/
def minutely : (op : sig.Op) → Clocked → sig.Reply op × Clocked :=
  clockwork (60 * 10 ^ 9) webAndApi (memoryItem "64Mi")

/-- What is remembered after the first poll, and still after the second. -/
def webAndApiTable : Cooldowns :=
  ((∅ : Cooldowns).insert "web/web" (2 * 60 * 10 ^ 9)).insert "api/web" (4 * 60 * 10 ^ 9)

/-- The world before the third poll. -/
def afterTwo : Clocked := (exec minutely (polls (memorySchedule none) 2 ∅) .start).2

/-- Both containers are held back in the second poll, and each is attempted again in the third. -/
theorem cooldown_per_container_webAndApi :
    afterTwo.done.map Prod.fst = [⟨"a", "web", "web"⟩, ⟨"b", "api", "web"⟩] ∧
    (trace minutely (run (memorySchedule none) webAndApiTable) afterTwo).filterMap attemptedRef =
      [⟨"a", "web", "web"⟩, ⟨"b", "api", "web"⟩] ∧
    Spaced (exec minutely (run (memorySchedule none) webAndApiTable) afterTwo).2.done ∧
    ∀ pod ∈ webAndApi, AttemptedOrRecent
      (exec minutely (run (memorySchedule none) webAndApiTable) afterTwo).2.done
      ⟨pod.ns, pod.name, "web"⟩
      (trace minutely (run (memorySchedule none) webAndApiTable) afterTwo) := by
  have hact : ∀ op s, clockAct {pod | pod ∈ webAndApi} op s (minutely op s).1 (minutely op s).2 :=
    clockwork_act (by decide) (by decide) _
  have hpolls := Runs.of_exec hact (polls (memorySchedule none) 2 ∅) .start
  have htable : (exec minutely (polls (memorySchedule none) 2 ∅) .start).1 =
      .ok webAndApiTable := by
    have hentries : (exec minutely (polls (memorySchedule none) 2 ∅) .start).1.map AList.entries =
        .ok webAndApiTable.entries := by decide +kernel
    obtain ⟨last, hlast⟩ := exists_ok (r := (exec minutely (polls (memorySchedule none) 2 ∅)
      .start).1) (by decide +kernel)
    rw [hlast] at hentries ⊢
    exact congrArg Except.ok (AList.ext (Except.ok.inj hentries))
  rw [htable] at hpolls
  have hnames : ∀ pod ∈ webAndApi, '/' ∉ pod.name.toList := by decide
  obtain ⟨hspaced, hown⟩ := cooldown_per_container hnames (memorySchedule none) le_rfl
    ⟨rfl, rfl⟩ hpolls (Runs.of_exec hact (run (memorySchedule none) webAndApiTable) afterTwo)
  refine ⟨by decide +kernel, by decide +kernel, hspaced, fun pod hpod => ?_⟩
  have hnamesApart : ∀ p ∈ webAndApi, ∀ q ∈ webAndApi, p.name = q.name → p.ns = q.ns := by decide
  have hfetched : ∀ pod ∈ webAndApi, (pod.ns, pod.name) ∈
      (trace minutely (run (memorySchedule none) webAndApiTable) afterTwo).filterMap
        fetchedPod := by
    decide +kernel
  have hrunning : ∀ pod ∈ webAndApi, pod.running = true := by decide
  have hcrosses : Crosses ⟨none, some ⟨some 50, none⟩, none⟩
      (limitsByName (filterContainers pod [])) (memoryItem "64Mi") := by
    refine ⟨memoryLimit (.int64 (2 ^ 27) 0), "memory 50% >= upper threshold 50%", ?_,
      by decide +kernel⟩
    rcases List.mem_pair.mp hpod with rfl | rfl
    · exact AList.lookup_insert _
    · exact AList.lookup_insert _
  obtain ⟨last', hlast'⟩ := exists_ok (r := (exec minutely (run (memorySchedule none)
    webAndApiTable) afterTwo).1) (by decide +kernel)
  exact hown (.inr hnamesApart) last' hlast' _ rfl webAndApi List.mem_cons_self pod hpod
    (hrunning pod hpod) _ (mem_of_fetchedPod (hfetched pod hpod)) _ (List.mem_singleton_self _)
    hcrosses

/-- Two pods of the same name in two namespaces, both over the threshold: the second one is not
    attempted, though it was never checkpointed. -/
theorem cooldown_shared :
    thresholdExceeded (memoryItem "64Mi") (memoryLimit (.int64 (2 ^ 27) 0))
      ⟨none, some ⟨some 50, none⟩, none⟩ = .ok (some "memory 50% >= upper threshold 50%") ∧
    (trace (clockwork 0 [webPod "a" (.int64 (2 ^ 27) 0), webPod "b" (.int64 (2 ^ 27) 0)]
      (memoryItem "64Mi")) (run (memorySchedule none) ∅) .start).filterMap attemptedRef
        = [⟨"a", "web", "web"⟩] ∧
    (exec (clockwork 0 [webPod "a" (.int64 (2 ^ 27) 0), webPod "b" (.int64 (2 ^ 27) 0)]
      (memoryItem "64Mi")) (run (memorySchedule none) ∅) .start).2.done
        = [(⟨"a", "web", "web"⟩, 0)] := by
  decide +kernel

end CheckpointRestore.Schedule.Metered
