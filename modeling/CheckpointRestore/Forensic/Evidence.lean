import CheckpointRestore.Forensic.Faulty

namespace CheckpointRestore.Forensic

open Go Interaction

/-!
# Evidence of deleted pods

`DeletePod` deletes the pods of a listing, while its guard only looks at the number of snapshots
of the whole chain.  A pod of the last listing may have no record: it appeared after the last
round when the maximum duration ends the chain, or it has none of the selected containers.

* `podNames` — the pods the stored records are about;
* `RecordedRound` — a reconcile that recorded a round;
* `Covered` — the pods about to be deleted are captured now or were by a recorded round;
* `deleted_of_covered` — in runs with covered reconciles, deleted pods have a record;
* `late_pod_deleted` — a pod that is deleted without one.
-/

/-! ### Records -/

/-- The pods the stored records are about. -/
def podNames (c : Chain) : List String := c.status.records.map Record.podName

theorem podNames_store (c : Chain) (st : Status) :
    podNames (c.store st) = st.records.map Record.podName := by
  show (st.records.map _).map Record.podName = _
  rw [List.map_map]
  rfl

theorem podNames_update (c : Chain) (st : Status) :
    podNames (c.update st) = st.records.map Record.podName :=
  podNames_store c { st with observedGeneration := c.generation }

variable {c : Chain} {tr : List (Event sig)}

/-- A change leaves the records alone or appends those of a round. -/
theorem Mutation.records {mutate : ℤ → ℤ → Status → Status} {after : Option (List PodInfo × ℤ)}
    (h : Mutation c tr mutate after) (t₁ t₂ : ℤ) (st : Status) :
    (mutate t₁ t₂ st).records = st.records ∧
        (¬ supported c ∨ Decided tr c true ∨ CheckpointFailed tr) ∨
      ∃ listed round, Rounded c tr listed round ∧
        (mutate t₁ t₂ st).records = st.records ++ round.newRecords := by
  cases h with
  | unsupported hu => exact Or.inl ⟨rfl, Or.inl hu⟩
  | maxDuration _ hd => exact Or.inl ⟨rfl, Or.inr (Or.inl hd)⟩
  | @roundFailed _ _ _ _ msg hf =>
    obtain ⟨conditions, completionTime, heq⟩ := Status.roundFailed_eq st msg (givesUp c) t₁ t₂
    obtain ⟨e, he, hmsg⟩ := hf
    exact Or.inl ⟨by rw [heq], Or.inr (Or.inr ⟨e, he, by rw [hmsg]; rfl⟩)⟩
  | @roundDone _ _ listed round hr t reason message _ =>
    obtain ⟨conditions, errorMessage, heq⟩ :=
      Status.roundDone_eq st t round (hashingEnabled c) reason message t₁ t₂
    exact Or.inr ⟨listed, round, hr, by rw [heq]⟩
  | @roundContinue _ _ listed round hr t _ =>
    obtain ⟨conditions, errorMessage, heq⟩ :=
      Status.roundContinue_eq st t round (hashingEnabled c) t₁ t₂
    exact Or.inr ⟨listed, round, hr, by rw [heq]⟩

variable {pod : PodInfo}

/-- A pod with a selected container is among the targets. -/
theorem mem_targets {pods : List PodInfo} (hpod : pod ∈ pods)
    (hselected : filterContainers pod c.spec.containerNames ≠ []) :
    pod.name ∈ (targets c pods).map Target.pod := by
  obtain ⟨container, rest, hcons⟩ := List.exists_cons_of_ne_nil hselected
  refine List.mem_map.mpr ⟨⟨pod.name, pod.nodeName, container⟩, ?_, rfl⟩
  refine List.mem_flatMap.mpr ⟨pod, hpod, List.mem_map.mpr ⟨container, ?_, rfl⟩⟩
  rw [hcons]
  exact List.mem_cons_self

variable {listed : List PodInfo}

/-- A round has records of every running pod with a selected container. -/
theorem Rounded.mem_podNames {listed' : List PodInfo} {round : Round}
    (h : Rounded c tr listed round) (hlisted : Listed tr listed') (hpod : pod ∈ listed')
    (hrunning : pod.running = true) (hselected : filterContainers pod c.spec.containerNames ≠ []) :
    pod.name ∈ round.newRecords.map Record.podName := by
  obtain rfl := (h.only listed').mp hlisted
  rw [h.pods]
  exact mem_targets (List.mem_filter.mpr ⟨hpod, hrunning⟩) hselected

/-! ### Turns -/

section Turn
variable {c c' : Chain} {tr : List (Event sig)}

/-- Records stay. -/
theorem Turn.podNames_subset (h : Turn c tr c') : podNames c ⊆ podNames c' := by
  cases h with
  | idle _ hc => rw [hc]; exact List.Subset.refl _
  | toPending _ _ _ t₁ t₂ hc => rw [hc, podNames_store]; exact List.Subset.refl _
  | toRunning _ _ _ t₁ hc => rw [hc, podNames_store]; exact List.Subset.refl _
  | update _ _ hm t₁ t₂ hc =>
    rw [hc, podNames_update]
    rcases hm.records t₁ t₂ c.status with ⟨hrecords, -⟩ | ⟨listed, round, -, hrecords⟩
    · rw [hrecords]
      exact List.Subset.refl _
    · rw [hrecords, List.map_append]
      exact List.subset_append_left _ _

/-- After a recorded round, every running pod with a selected container has a record. -/
theorem Turn.mem_podNames (h : Turn c tr c') (hround : RecordedRound ⟨c, tr⟩)
    (hlisted : Listed tr listed) (hpod : pod ∈ listed) (hrunning : pod.running = true)
    (hselected : filterContainers pod c.spec.containerNames ≠ []) : pod.name ∈ podNames c' := by
  cases h with
  | idle hw => exact absurd hround.wrote hw
  | toPending _ hp => exact absurd (hround.running.symm.trans hp) (by simp)
  | toRunning _ hp => exact absurd (hround.running.symm.trans hp) (by simp)
  | update _ _ hm t₁ t₂ hc =>
    rw [hc, podNames_update]
    rcases hm.records t₁ t₂ c.status with ⟨-, hu | hd | hf⟩ | ⟨listed', round, hr, hrecords⟩
    · exact absurd hround.supported hu
    · exact absurd (hd.unique hround.due) (by simp)
    · exact absurd hf hround.unfailed
    · rw [hrecords, List.map_append]
      exact List.mem_append_right _ (hr.mem_podNames hlisted hpod hrunning hselected)

end Turn

/-! ### Covered reconciles -/

/-- The reconcile completes the chain and has pods to delete: its maximum duration has passed
    and there are snapshots, or its round is the last one and there are snapshots with it. -/
def Acts (c : Chain) (tr : List (Event sig)) (listed : List PodInfo) : Prop :=
  c.status.phase = .running ∧ supported c ∧ c.spec.postSnapshotAction = .deletePod ∧
  (Decided tr c true ∧ c.status.snapshotCount ≠ 0 ∨
    Decided tr c false ∧ ¬ CheckpointFailed tr ∧
      (completion c (targets c (listed.filter PodInfo.running)).length).isSome ∧
      (targets c (listed.filter PodInfo.running) ≠ [] ∨ c.status.snapshotCount ≠ 0))

/-- A recorded round of the past has captured a container of the pod. -/
def CapturedBefore (past : List Reconciled) (pod : PodInfo) : Prop :=
  ∃ r ∈ past, RecordedRound r ∧ ∃ listed, Listed r.trace listed ∧ ∃ pod' ∈ listed,
    pod'.running = true ∧ pod'.name = pod.name ∧
    filterContainers pod' r.chain.spec.containerNames ≠ []

/-- Every running pod that a reconcile with pods to delete is told about has a selected container
    that its round captures, or was captured by a recorded round before. -/
def Covered (past : List Reconciled) (c : Chain) (tr : List (Event sig)) : Prop :=
  ∀ listed, Listed tr listed → Acts c tr listed → ∀ pod ∈ listed, pod.running = true →
    Decided tr c false ∧ filterContainers pod c.spec.containerNames ≠ [] ∨ CapturedBefore past pod

/-- What recorded rounds have captured is still on record. -/
theorem podNames_of_history {ok : List Reconciled → Chain → List (Event sig) → Prop} {c₀ : Chain}
    {past : List Reconciled} (h : History ok c₀ past c) (hbefore : CapturedBefore past pod) :
    pod.name ∈ podNames c := by
  refine h.invariant (I := fun past c => CapturedBefore past pod → pod.name ∈ podNames c) ?_ ?_
    (fun _ _ _ _ hI => hI) hbefore
  · rintro ⟨r, hr, -⟩
    exact absurd hr List.not_mem_nil
  · rintro past c tr c' hI - hturn ⟨r, hr, hround, listed, hlisted, pod', hpod', hrunning, hname,
      hselected⟩
    rcases List.mem_append.mp hr with hr | hr
    · exact hturn.podNames_subset
        (hI ⟨r, hr, hround, listed, hlisted, pod', hpod', hrunning, hname, hselected⟩)
    · obtain rfl := List.mem_singleton.mp hr
      rw [← hname]
      exact hturn.mem_podNames hround hlisted hpod' hrunning hselected

/-- A round captures a container for each of its targets. -/
theorem Rounded.captured_eq {round : Round} (h : Rounded c tr listed round) :
    round.captured = (targets c (listed.filter PodInfo.running)).length := by
  have hpods := congrArg List.length h.pods
  rw [List.length_map, List.length_map] at hpods
  rw [h.captured.length_newRecords, hpods]

/-- **Deleted pods have evidence.**  In every run whose reconciles are all covered, each pod that
    is deleted has a record in the status that was stored before. -/
theorem deleted_of_covered {c₀ c c' : Chain} {past : List Reconciled} {tr : List (Event sig)}
    {o : Outcome} (h : History Covered c₀ past c) (hok : Covered past c tr)
    (hr : Runs faultyAct reconcile c tr o c') {pre post : List (Event sig)} {pod : PodInfo}
    {r : DeleteReply} (htr : tr = pre ++ ⟨Op.deletePod pod, r⟩ :: post) :
    ∃ record ∈ (replay c pre).status.records, record.podName = pod.name := by
  obtain ⟨hstored, hp, haction, mutate, pods, count, t₁, t₂, hm, hc, hcount, hpod⟩ :=
    reconcile_deletes hr htr
  suffices hname : pod.name ∈ podNames c' by
    rw [hstored]
    exact List.mem_map.mp hname
  -- what was captured before is in the records of `c`, which stay
  have hbefore : CapturedBefore past pod → pod.name ∈ podNames c' :=
    fun hbefore => (reconcile_turn hr).podNames_subset (podNames_of_history h hbefore)
  cases hm with
  | maxDuration hs hd hf hpods =>
    obtain ⟨listed, honly, rfl⟩ := hpods haction
    obtain ⟨hin, hrunning⟩ := List.mem_filter.mp hpod
    have hacts : Acts c tr listed := ⟨hp, hs, haction, Or.inl ⟨hd, hcount⟩⟩
    rcases hok listed ((honly listed).mpr rfl) hacts pod hin hrunning with ⟨hd', -⟩ | hcaptured
    · exact absurd (hd.unique hd') (by simp)
    · exact hbefore hcaptured
  | @roundDone hs hd listed round hround t reason message hcomp =>
    obtain ⟨hin, hrunning⟩ := List.mem_filter.mp hpod
    have hlisted : Listed tr listed := (hround.only listed).mpr rfl
    have hacts : Acts c tr listed := by
      refine ⟨hp, hs, haction, Or.inr ⟨hd, hround.unfailed, ?_, ?_⟩⟩
      · rw [← hround.captured_eq, hcomp]
        rfl
      · by_contra hnone
        rw [not_or, not_not, not_not] at hnone
        have hzero : round.captured = 0 := by rw [hround.captured_eq, hnone.1]; rfl
        exact hcount (by rw [countAfter, hzero]; exact hnone.2)
    rcases hok listed hlisted hacts pod hin hrunning with ⟨-, hselected⟩ | hcaptured
    · obtain ⟨conditions, errorMessage, heq⟩ :=
        Status.roundDone_eq c.status t round (hashingEnabled c) reason message t₁ t₂
      rw [hc, podNames_update, heq, List.map_append]
      exact List.mem_append_right _ (hround.mem_podNames hlisted hin hrunning hselected)
    · exact hbefore hcaptured

/-- The deletion of a pod is in the trace of the reconcile at a time in seconds. -/
theorem deletion_mem (seconds : ℕ) (names : List String) (name : String) {n : ℕ}
    (h : ((podsAt seconds names).turnTrace (webChain 3))[n]?
      = some ⟨Op.deletePod (appPod name), DeleteReply.ok⟩) :
    ∃ pre post, (podsAt seconds names).turnTrace (webChain 3)
      = pre ++ ⟨Op.deletePod (appPod name), DeleteReply.ok⟩ :: post :=
  List.append_of_mem (List.mem_of_getElem? h)

/-- The maximum duration has not passed in the round. -/
theorem decided_webChain : Decided ((podsAt 0 ["web"]).turnTrace (webChain 2)) (webChain 2) false :=
  (decided_of_limit rfl rfl false).mpr ⟨0, rfl, rfl⟩

/-- The round is on record. -/
theorem recordedRound_web :
    RecordedRound ⟨webChain 2, (podsAt 0 ["web"]).turnTrace (webChain 2)⟩ where
  running := rfl
  supported := by unfold supported; decide
  due := decided_webChain
  unfailed := by unfold CheckpointFailed; decide
  wrote := by unfold Wrote; decide

/-- The three reconciles are covered: only the third one lists pods, and it captures them. -/
theorem covered_web : History Covered minuteChain (reconciles minuteChain webClusters).1
    (webChain 3) := by
  refine History.reconciles minuteChain webClusters ?_
  intro i cl hcl listed hlisted _ pod hpod _
  rw [listed_iff_mem] at hlisted
  rcases i with _ | _ | _ | i
  · obtain rfl := Option.some.inj hcl
    exact absurd hlisted List.not_mem_nil
  · obtain rfl := Option.some.inj hcl
    exact absurd hlisted List.not_mem_nil
  · obtain rfl := Option.some.inj hcl
    obtain rfl := List.mem_singleton.mp hlisted
    obtain rfl := List.mem_singleton.mp hpod
    exact Or.inl ⟨decided_webChain, by decide⟩
  · exact absurd hcl (by simp [webClusters])

/-- Two minutes later the pod `web` is deleted, and its record is stored. -/
theorem deleted_of_covered_web : ∃ pre post,
    (podsAt 120 ["web"]).turnTrace (webChain 3)
      = pre ++ ⟨Op.deletePod (appPod "web"), DeleteReply.ok⟩ :: post ∧
    ∃ record ∈ (replay (webChain 3) pre).status.records, record.podName = "web" := by
  obtain ⟨pre, post, htr⟩ := deletion_mem 120 ["web"] "web" (n := 7) rfl
  refine ⟨pre, post, htr, deleted_of_covered covered_web ?_
    ((podsAt 120 ["web"]).runs (webChain 3)) htr⟩
  intro listed hlisted _ pod hpod _
  rw [listed_iff_mem] at hlisted
  obtain rfl := List.mem_singleton.mp hlisted
  obtain rfl := List.mem_singleton.mp hpod
  refine Or.inr ⟨_, List.mem_concat_self, recordedRound_web, [appPod "web"], ?_, appPod "web",
    List.mem_cons_self, rfl, rfl, by decide⟩
  rw [listed_iff_mem]
  exact List.mem_cons_self

/-- A pod that appears after the last round is deleted with the others, without a record. -/
theorem late_pod_deleted : ∃ past c tr o c' pre pod r post,
    History (fun _ _ tr => ∀ e ∈ tr, served e = true) minuteChain past c ∧
    (∀ e ∈ tr, served e = true) ∧ Runs faultyAct reconcile c tr o c' ∧
    tr = pre ++ ⟨Op.deletePod pod, r⟩ :: post ∧
    ∀ record ∈ (replay c pre).status.records, record.podName ≠ pod.name := by
  obtain ⟨pre, post, htr⟩ := deletion_mem 120 ["web", "late"] "late" (n := 8) rfl
  have hruns := (podsAt 120 ["web", "late"]).runs (webChain 3)
  refine ⟨_, webChain 3, _, _, _, pre, appPod "late", DeleteReply.ok, post,
    History.reconciles minuteChain webClusters (fun _ cl _ => cl.served_turnTrace _),
    (podsAt 120 ["web", "late"]).served_turnTrace _, hruns, htr, ?_⟩
  rw [(reconcile_deletes hruns htr).1]
  decide

end CheckpointRestore.Forensic
