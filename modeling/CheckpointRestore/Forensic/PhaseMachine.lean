import CheckpointRestore.Forensic.Faulty

namespace CheckpointRestore.Forensic

open Go Interaction

/-!
# The phase machine

The phase, the counters, the times and the reasons of a chain, over whole runs of reconciles that
all read the same spec.

* `rounds`, `failuresSince` — what the past says about the counters;
* `Consistent` — the counters and reasons that fit each other and the past;
* `Progress` — the inductive form: what an open chain has not reached yet;
* `phase_machine_consistent` — every run keeps it, and pods are deleted under it only.
-/

/-! ### What the past says -/

section Decidable
variable (tr : List (Event sig)) (c : Chain)

instance : Decidable (Wrote tr) := inferInstanceAs (Decidable (∃ e ∈ tr, (written e).isSome))

instance : Decidable (CheckpointFailed tr) :=
  inferInstanceAs (Decidable (∃ e ∈ tr, (checkpointError e).isSome))

instance : Decidable (supported c) :=
  inferInstanceAs (Decidable (¬ (c.spec.hashAlgorithm ≠ "" ∧ c.spec.hashAlgorithm ≠ "sha256")))

instance (elapsed : Bool) : Decidable (Decided tr c elapsed) :=
  match hmax : c.spec.capture.maxDuration, hstart : c.status.startTime with
  | none, _ => decidable_of_iff _ (decided_of_none (Or.inl hmax) elapsed).symm
  | some _, none => decidable_of_iff _ (decided_of_none (Or.inr hstart) elapsed).symm
  | some maxDuration, some startTime =>
    decidable_of_iff
      ((firstClock tr).map (fun t => decide (t - startTime > maxDuration)) = some elapsed)
      (by rw [decided_of_limit hmax hstart]; simp [eq_comm])

end Decidable

/-- A recorded round, as one proposition. -/
theorem recordedRound_iff (r : Reconciled) :
    RecordedRound r ↔ r.chain.status.phase = .running ∧ supported r.chain ∧
      Decided r.trace r.chain false ∧ ¬ CheckpointFailed r.trace ∧ Wrote r.trace :=
  ⟨fun h => ⟨h.running, h.supported, h.due, h.unfailed, h.wrote⟩,
    fun ⟨hp, hs, hd, hf, hw⟩ => ⟨hp, hs, hd, hf, hw⟩⟩

instance (r : Reconciled) : Decidable (RecordedRound r) :=
  decidable_of_iff _ (recordedRound_iff r).symm

/-- The reconcile recorded a failed round. -/
def FailedRound (r : Reconciled) : Prop := CheckpointFailed r.trace ∧ Wrote r.trace

instance (r : Reconciled) : Decidable (FailedRound r) :=
  inferInstanceAs (Decidable (CheckpointFailed r.trace ∧ Wrote r.trace))

/-- The number of recorded rounds, failed ones included. -/
def rounds (past : List Reconciled) : ℕ :=
  past.countP (fun r => RecordedRound r ∨ FailedRound r)

/-- The number of recorded failed rounds since the last recorded round that did not fail. -/
def failuresSince (past : List Reconciled) : ℕ :=
  past.foldl (fun n r => if RecordedRound r then 0 else if FailedRound r then n + 1 else n) 0

section Append
variable (past : List Reconciled) {r : Reconciled}

theorem rounds_le_append (r : Reconciled) : rounds past ≤ rounds (past ++ [r]) := by
  unfold rounds
  rw [List.countP_append]
  exact Nat.le_add_right _ _

theorem rounds_append (h : RecordedRound r ∨ FailedRound r) :
    rounds (past ++ [r]) = rounds past + 1 := by
  unfold rounds
  rw [List.countP_append, List.countP_singleton, if_pos (by simpa using h)]

theorem failuresSince_append (r : Reconciled) :
    failuresSince (past ++ [r])
      = if RecordedRound r then 0 else if FailedRound r then failuresSince past + 1
        else failuresSince past := by
  unfold failuresSince
  rw [List.foldl_append]
  rfl

/-- A failed round is a round. -/
theorem failuresSince_le_rounds : failuresSince past ≤ rounds past := by
  induction past using List.reverseRecOn with
  | nil => exact le_rfl
  | append_singleton past r ih =>
    rw [failuresSince_append]
    have hmono := rounds_le_append past r
    split_ifs with hrecorded hfailed
    · exact Nat.zero_le _
    · rw [rounds_append past (Or.inr hfailed)]
      omega
    · omega

end Append

/-! ### The invariant -/

/-- The moves of the phase. -/
inductive Phase.Next : Phase → Phase → Prop
  | pending : Next .empty .pending
  | running : Next .pending .running
  | completed : Next .running .completed
  | failed : Next .running .failed

/-- The counters, times and reasons of a stored status fit each other and the past. -/
structure Consistent (spec : Spec) (past : List Reconciled) (st : Status) : Prop where
  completionTime : st.completionTime.isSome ↔ st.phase.terminal = true
  snapshots : st.snapshotCount ≤ st.attemptCount
  limit : ∀ limit, spec.capture.maxSnapshots = some limit → st.snapshotCount ≤ limit
  failures : st.failureCount = failuresSince past
  failed : st.phase = .failed →
    (spec.hashAlgorithm ≠ "" ∧ spec.hashAlgorithm ≠ "sha256") ∨
      spec.capture.maxDuration = none ∧ 5 ≤ st.failureCount
  maxSnapshotsReached : ∀ status,
    verdict st.conditions "Ready" = some (status, "MaxSnapshotsReached") →
      spec.capture.maxSnapshots = some st.snapshotCount
  noMatchingPods : ∀ status, verdict st.conditions "Ready" = some (status, "NoMatchingPods") →
    spec.capture.maxDuration = none ∧ ∃ limit, spec.capture.maxSnapshots = some limit ∧
      st.snapshotCount < limit ∧ limit ≤ st.attemptCount

/-- The reason of `Ready` is not one that speaks of the number of snapshots. -/
def Uncounted (st : Status) : Prop :=
  ∀ status, verdict st.conditions "Ready" ≠ some (status, "MaxSnapshotsReached") ∧
    verdict st.conditions "Ready" ≠ some (status, "NoMatchingPods")

/-- The inductive form: the counters do not wrap around, and an open chain has not reached its
    limit. -/
structure Progress (spec : Spec) (past : List Reconciled) (st : Status) : Prop
    extends Consistent spec past st where
  nonneg : 0 ≤ st.snapshotCount
  attempts : st.attemptCount ≤ rounds past
  below : st.phase.terminal = false →
    ∀ limit, spec.capture.maxSnapshots = some limit → st.snapshotCount < limit
  uncounted : st.phase.terminal = false → Uncounted st

section Progress
variable {spec : Spec} {past : List Reconciled} {st st' : Status} {r : Reconciled}

theorem uncounted_of_verdict {status : ConditionStatus} {reason : String}
    (h : verdict st.conditions "Ready" = some (status, reason))
    (h₁ : reason ≠ "MaxSnapshotsReached") (h₂ : reason ≠ "NoMatchingPods") : Uncounted st := by
  intro status'
  rw [h]
  exact ⟨fun heq => h₁ (congrArg Prod.snd (Option.some.inj heq)),
    fun heq => h₂ (congrArg Prod.snd (Option.some.inj heq))⟩

/-- Storing keeps it. -/
theorem Progress.update {c : Chain} (h : Progress spec past st) :
    Progress spec past (c.update st).status := by
  have hverdict : verdict (c.update st).status.conditions "Ready" = verdict st.conditions "Ready" :=
    Status.stored_verdict { st with observedGeneration := c.generation } "Ready"
  have huncounted : Uncounted st → Uncounted (c.update st).status := by
    intro hst status
    rw [hverdict]
    exact hst status
  refine ⟨⟨?_, h.snapshots, h.limit, h.failures, h.failed, ?_, ?_⟩, h.nonneg, h.attempts, h.below,
    fun hopen => huncounted (h.uncounted hopen)⟩
  · show (st.completionTime.map truncate).isSome ↔ _
    rw [Option.isSome_map]
    exact h.completionTime
  · rw [hverdict]
    exact h.maxSnapshotsReached
  · rw [hverdict]
    exact h.noMatchingPods

/-- A change of an open chain that keeps the counters. -/
theorem Progress.steady (h : Progress spec past st) (hopen : st.phase.terminal = false)
    (hcompletion : st'.completionTime.isSome ↔ st'.phase.terminal = true)
    (hphase : st'.phase = .failed → spec.hashAlgorithm ≠ "" ∧ spec.hashAlgorithm ≠ "sha256")
    (hsnapshots : st'.snapshotCount = st.snapshotCount)
    (hattempts : st'.attemptCount = st.attemptCount)
    (hfailures : st'.failureCount = st.failureCount) (huncounted : Uncounted st') :
    Progress spec past st' where
  completionTime := hcompletion
  snapshots := by rw [hsnapshots, hattempts]; exact h.snapshots
  limit := by rw [hsnapshots]; exact h.limit
  failures := by rw [hfailures]; exact h.failures
  failed hp := Or.inl (hphase hp)
  maxSnapshotsReached status heq := absurd heq (huncounted status).1
  noMatchingPods status heq := absurd heq (huncounted status).2
  nonneg := by rw [hsnapshots]; exact h.nonneg
  attempts := by rw [hattempts]; exact h.attempts
  below _ := by rw [hsnapshots]; exact h.below hopen
  uncounted _ := huncounted

/-- A reconcile that records no round. -/
theorem Progress.unrecorded (h : Progress spec past st) (hrecorded : ¬ RecordedRound r)
    (hfailed : ¬ FailedRound r) : Progress spec (past ++ [r]) st :=
  { h with
    failures := by
      rw [failuresSince_append, if_neg hrecorded, if_neg hfailed]
      exact h.failures
    attempts := h.attempts.trans (by exact_mod_cast rounds_le_append past r) }

/-- A recorded failed round of an open chain. -/
theorem Progress.failedRound (h : Progress spec past st) (hopen : st.phase.terminal = false)
    (hrecorded : ¬ RecordedRound r) (hfailed : FailedRound r)
    (hbound : rounds (past ++ [r]) < 2 ^ 31)
    (hcompletion : st'.completionTime.isSome ↔ st'.phase.terminal = true)
    (hphase : st'.phase = .failed →
      spec.capture.maxDuration = none ∧ 5 ≤ wrap32 (st.failureCount + 1))
    (hsnapshots : st'.snapshotCount = st.snapshotCount)
    (hattempts : st'.attemptCount = st.attemptCount)
    (hfailures : st'.failureCount = wrap32 (st.failureCount + 1)) (huncounted : Uncounted st') :
    Progress spec (past ++ [r]) st' where
  completionTime := hcompletion
  snapshots := by rw [hsnapshots, hattempts]; exact h.snapshots
  limit := by rw [hsnapshots]; exact h.limit
  -- fewer than 2^31 rounds, so the counter has not wrapped
  failures := by
    have hle := failuresSince_le_rounds past
    rw [rounds_append past (Or.inr hfailed)] at hbound
    rw [hfailures, h.failures, failuresSince_append, if_neg hrecorded, if_pos hfailed,
      wrap32_eq (by omega) (by omega)]
    push_cast
    rfl
  failed hp := Or.inr (by rw [hfailures]; exact hphase hp)
  maxSnapshotsReached status heq := absurd heq (huncounted status).1
  noMatchingPods status heq := absurd heq (huncounted status).2
  nonneg := by rw [hsnapshots]; exact h.nonneg
  attempts := by
    rw [hattempts]
    exact h.attempts.trans (by exact_mod_cast rounds_le_append past r)
  below _ := by rw [hsnapshots]; exact h.below hopen
  uncounted _ := huncounted

/-- The counters do not wrap around in a recorded round. -/
theorem Progress.wrap32_counts (h : Progress spec past st) (hbound : rounds past + 1 < 2 ^ 31) :
    wrap32 (st.snapshotCount + 1) = st.snapshotCount + 1 ∧
      wrap32 (st.attemptCount + 1) = st.attemptCount + 1 := by
  have hnonneg := h.nonneg
  have hsnapshots := h.snapshots
  have hattempts := h.attempts
  exact ⟨wrap32_eq (by omega) (by omega), wrap32_eq (by omega) (by omega)⟩

end Progress

/-! ### Rounds that count -/

section Counted
variable {spec : Spec} {past : List Reconciled} {c : Chain} {r : Reconciled} {st' : Status}

/-- A recorded round that did not fail. -/
theorem Progress.countedRound (h : Progress spec past c.status) (round : Round)
    (hopen : c.status.phase.terminal = false) (hrecorded : RecordedRound r)
    (hbound : rounds (past ++ [r]) < 2 ^ 31)
    (hcompletion : st'.completionTime.isSome ↔ st'.phase.terminal = true)
    (hphase : st'.phase ≠ .failed) (hsnapshots : st'.snapshotCount = countAfter c round)
    (hattempts : st'.attemptCount = wrap32 (c.status.attemptCount + 1))
    (hfailures : st'.failureCount = 0)
    (hreached : ∀ status, verdict st'.conditions "Ready" = some (status, "MaxSnapshotsReached") →
      ∃ limit, spec.capture.maxSnapshots = some limit ∧ limit ≤ countAfter c round)
    (hnone : ∀ status, verdict st'.conditions "Ready" = some (status, "NoMatchingPods") →
      spec.capture.maxDuration = none ∧ ∃ limit, spec.capture.maxSnapshots = some limit ∧
        countAfter c round < limit ∧ limit ≤ wrap32 (c.status.attemptCount + 1))
    (hbelow : st'.phase.terminal = false →
      ∀ limit, spec.capture.maxSnapshots = some limit → countAfter c round < limit)
    (huncounted : st'.phase.terminal = false → Uncounted st') :
    Progress spec (past ++ [r]) st' := by
  rw [rounds_append past (Or.inl hrecorded)] at hbound
  obtain ⟨hs, ha⟩ := h.wrap32_counts hbound
  -- a round raises the number of snapshots by one, if it captured anything
  have hcount : countAfter c round = c.status.snapshotCount + 1 ∨
      countAfter c round = c.status.snapshotCount := by
    unfold countAfter
    rw [hs]
    split
    · exact Or.inl rfl
    · exact Or.inr rfl
  have hnonneg := h.nonneg
  have hle := h.snapshots
  have hrounds := h.attempts
  -- an open chain was below its limit, so one more snapshot reaches it at most
  have hlimit : ∀ limit, spec.capture.maxSnapshots = some limit → countAfter c round ≤ limit := by
    intro limit hmax
    have hlt := h.below hopen limit hmax
    omega
  refine ⟨⟨hcompletion, ?_, ?_, ?_, fun hp => absurd hp hphase, ?_, ?_⟩, ?_, ?_, ?_, huncounted⟩
  · rw [hsnapshots, hattempts, ha]
    omega
  · rw [hsnapshots]
    exact hlimit
  · rw [hfailures, failuresSince_append, if_pos hrecorded]
    rfl
  · intro status heq
    obtain ⟨limit, hmax, hge⟩ := hreached status heq
    rw [hmax, hsnapshots, le_antisymm hge (hlimit limit hmax)]
  · rw [hsnapshots, hattempts]
    exact hnone
  · rw [hsnapshots]
    omega
  · rw [hattempts, ha, rounds_append past (Or.inl hrecorded)]
    push_cast
    omega
  · rw [hsnapshots]
    exact hbelow

/-- A round that completes the chain. -/
theorem Progress.roundDone (h : Progress c.spec past c.status)
    (hopen : c.status.phase.terminal = false) (hrecorded : RecordedRound r)
    (hbound : rounds (past ++ [r]) < 2 ^ 31) (t : ℤ) {round : Round} {reason message : String}
    (hcomp : completion c round.captured = some (reason, message)) (t₁ t₂ : ℤ) :
    Progress c.spec (past ++ [r])
      (c.status.roundDone t round (hashingEnabled c) reason message t₁ t₂) := by
  obtain ⟨limit, hmax, hreason⟩ := completion_reason hcomp
  obtain ⟨conditions, errorMessage, heq⟩ :=
    Status.roundDone_eq c.status t round (hashingEnabled c) reason message t₁ t₂
  have hready : verdict (c.status.roundDone t round (hashingEnabled c) reason message
      t₁ t₂).conditions "Ready" = some (.true, reason) := by
    rw [Status.verdict_roundDone, if_neg (by simp), if_pos rfl]
  have hphase : (c.status.roundDone t round (hashingEnabled c) reason message t₁ t₂).phase
      = .completed := by rw [heq]
  have hclosed : (c.status.roundDone t round (hashingEnabled c) reason message
      t₁ t₂).phase.terminal ≠ false := by
    rw [hphase]
    decide
  refine h.countedRound round hopen hrecorded hbound ?_ (by rw [hphase]; simp) (by rw [heq]; rfl)
    (by rw [heq]; rfl) (by rw [heq]; rfl) ?_ ?_ (fun hopen' => absurd hopen' hclosed)
    (fun hopen' => absurd hopen' hclosed)
  · rw [heq]
    simp [Phase.terminal]
  · intro status hverdict
    rw [hready, Option.some.injEq, Prod.mk.injEq] at hverdict
    rcases hreason with ⟨-, hge⟩ | ⟨hne, -⟩
    · exact ⟨limit, hmax, hge⟩
    · exact absurd (hne.symm.trans hverdict.2) (by decide)
  · intro status hverdict
    rw [hready, Option.some.injEq, Prod.mk.injEq] at hverdict
    rcases hreason with ⟨hne, -⟩ | ⟨-, hlt, hduration, hattempts⟩
    · exact absurd (hne.symm.trans hverdict.2) (by decide)
    · exact ⟨hduration, limit, hmax, hlt, hattempts⟩

/-- A round after which the chain goes on. -/
theorem Progress.roundContinue (h : Progress c.spec past c.status)
    (hopen : c.status.phase.terminal = false) (hrecorded : RecordedRound r)
    (hbound : rounds (past ++ [r]) < 2 ^ 31) (t : ℤ) {round : Round}
    (hcomp : completion c round.captured = none) (t₁ t₂ : ℤ) :
    Progress c.spec (past ++ [r])
      (c.status.roundContinue t round (hashingEnabled c) t₁ t₂) := by
  obtain ⟨conditions, errorMessage, heq⟩ :=
    Status.roundContinue_eq c.status t round (hashingEnabled c) t₁ t₂
  have huncounted :
      Uncounted (c.status.roundContinue t round (hashingEnabled c) t₁ t₂) := by
    obtain ⟨ready, hverdict, hready⟩ :=
      Status.verdict_roundContinue c.status t round (hashingEnabled c) t₁ t₂ "Ready"
    rw [if_neg (by simp)] at hverdict
    -- `Ready` keeps what it said, or reports the snapshot that failed its check
    rcases hready with rfl | ⟨-, rfl⟩
    · intro status
      rw [hverdict]
      exact h.uncounted hopen status
    · exact uncounted_of_verdict hverdict (by decide) (by decide)
  refine h.countedRound round hopen hrecorded hbound ?_ ?_ (by rw [heq]; rfl) (by rw [heq]; rfl)
    (by rw [heq]; rfl) (fun status hverdict => absurd hverdict (huncounted status).1)
    (fun status hverdict => absurd hverdict (huncounted status).2)
    (fun _ limit hmax => countAfter_lt_of_completion hcomp hmax) (fun _ => huncounted)
  · rw [heq]
    exact h.completionTime
  · rw [heq]
    intro hphase
    have hfailed : c.status.phase = .failed := hphase
    rw [hfailed] at hopen
    exact absurd hopen (by decide)

end Counted

/-! ### One reconcile -/

section Turn
variable {spec : Spec} {past : List Reconciled} {c c' : Chain} {tr : List (Event sig)}

/-- The statuses of an open chain have no completion time. -/
theorem Progress.completionTime_of_open {st : Status} (h : Progress spec past st)
    (hopen : st.phase.terminal = false) : st.completionTime.isSome = false := by
  rw [← Bool.not_eq_true, h.completionTime, hopen]
  simp

/-- The changes of a running chain keep the invariant, one case for each of them. -/
theorem Mutation.progress {mutate : ℤ → ℤ → Status → Status} {after : Option (List PodInfo × ℤ)}
    (h : Mutation c tr mutate after) (hw : Wrote tr) (hp : c.status.phase = .running)
    (hspec : c.spec = spec) (hprogress : Progress spec past c.status)
    (hbound : rounds (past ++ [⟨c, tr⟩]) < 2 ^ 31) (t₁ t₂ : ℤ) :
    Progress spec (past ++ [⟨c, tr⟩]) (mutate t₁ t₂ c.status) := by
  subst hspec
  have hopen : c.status.phase.terminal = false := by rw [hp]; rfl
  have hnone := hprogress.completionTime_of_open hopen
  cases h with
  | unsupported hu hf =>
    refine Progress.unrecorded ?_ (fun hr => hu hr.supported) (fun hr => hf hr.1)
    exact hprogress.steady hopen
      (by simp [Status.failUnsupported, Status.setReady, Phase.terminal])
      (fun _ => not_not.mp hu) rfl rfl rfl
      (uncounted_of_verdict (Status.verdict_setReady _ _ _ _ _) (by decide) (by decide))
  | maxDuration hs hd hf =>
    refine Progress.unrecorded ?_ (fun hr => absurd (hd.unique hr.due) (by simp))
      (fun hr => hf hr.1)
    exact hprogress.steady hopen
      (by simp [Status.maxDurationReached, Status.setReady, Phase.terminal])
      (fun hphase => absurd hphase (by simp [Status.maxDurationReached, Status.setReady]))
      rfl rfl rfl
      (uncounted_of_verdict (Status.verdict_setReady _ _ _ _ _) (by decide) (by decide))
  | @roundFailed hs hd listed hl msg hf =>
    have hfailed : CheckpointFailed tr := by
      obtain ⟨e, he, hmsg⟩ := hf
      exact ⟨e, he, by rw [hmsg]; rfl⟩
    have hrecorded : ¬ RecordedRound ⟨c, tr⟩ := fun hr => hr.unfailed hfailed
    cases hgives : givesUp c with
    | true =>
      -- the fifth failure in a row, without a maximum duration
      have hlast : c.spec.capture.maxDuration = none ∧ 5 ≤ wrap32 (c.status.failureCount + 1) := by
        simpa [givesUp, maxConsecutiveCheckpointFailures] using hgives
      refine hprogress.failedRound hopen hrecorded ⟨hfailed, hw⟩ hbound
        (by simp [Status.roundFailed, Status.setReady, Phase.terminal]) (fun _ => hlast) rfl rfl rfl
        ?_
      exact uncounted_of_verdict (Status.verdict_setReady _ _ _ _ _) (by decide) (by decide)
    | false =>
      refine hprogress.failedRound hopen hrecorded ⟨hfailed, hw⟩ hbound
        (by simp [Status.roundFailed, Status.setReady, hnone, hopen])
        (fun hphase => absurd (hp.symm.trans hphase) (by simp)) rfl rfl rfl ?_
      exact uncounted_of_verdict (Status.verdict_setReady _ _ _ _ _) (by decide) (by decide)
  | @roundDone hs hd listed round hr t reason message hcomp =>
    exact hprogress.roundDone hopen ⟨hp, hs, hd, hr.unfailed, hw⟩ hbound t hcomp t₁ t₂
  | @roundContinue hs hd listed round hr t hcomp =>
    exact hprogress.roundContinue hopen ⟨hp, hs, hd, hr.unfailed, hw⟩ hbound t hcomp t₁ t₂

/-- The step lemma. -/
theorem Turn.progress (h : Turn c tr c') (hspec : c.spec = spec)
    (hprogress : Progress spec past c.status) (hbound : rounds (past ++ [⟨c, tr⟩]) < 2 ^ 31) :
    Progress spec (past ++ [⟨c, tr⟩]) c'.status := by
  cases h with
  | idle hw hc =>
    rw [hc]
    exact hprogress.unrecorded (fun hr => hw hr.wrote) (fun hr => hw hr.2)
  | toPending _ hp hf t₁ t₂ hc =>
    have hopen : c.status.phase.terminal = false := by rw [hp]; rfl
    have hnone := hprogress.completionTime_of_open hopen
    have hst : Progress spec past (c.status.toPending t₁ t₂ c.generation) :=
      hprogress.steady hopen (by simp [Status.toPending, Status.setReady, Phase.terminal, hnone])
        (fun hphase => absurd hphase (by simp [Status.toPending, Status.setReady])) rfl rfl rfl
        (uncounted_of_verdict (Status.verdict_setReady _ _ _ _ _) (by decide) (by decide))
    rw [hc]
    exact (hst.unrecorded (fun hr => absurd (hr.running.symm.trans hp) (by simp))
      (fun hr => hf hr.1)).update
  | toRunning _ hp hf t₁ hc =>
    have hopen : c.status.phase.terminal = false := by rw [hp]; rfl
    have hnone := hprogress.completionTime_of_open hopen
    have hst : Progress spec past (c.status.toRunning t₁ c.generation) :=
      hprogress.steady hopen (by simp [Status.toRunning, Status.setReady, Phase.terminal, hnone])
        (fun hphase => absurd hphase (by simp [Status.toRunning, Status.setReady])) rfl rfl rfl
        (uncounted_of_verdict (Status.verdict_setReady _ _ _ _ _) (by decide) (by decide))
    rw [hc]
    exact (hst.unrecorded (fun hr => absurd (hr.running.symm.trans hp) (by simp))
      (fun hr => hf hr.1)).update
  | update hw hp hm t₁ t₂ hc =>
    rw [hc]
    exact (hm.progress hw hp hspec hprogress hbound t₁ t₂).update

/-- The phase moves along the machine. -/
theorem Turn.next (h : Turn c tr c') :
    c'.status.phase = c.status.phase ∨ c.status.phase.Next c'.status.phase := by
  cases h with
  | idle _ hc => exact Or.inl (by rw [hc])
  | toPending _ hp _ t₁ t₂ hc =>
    rw [hp, hc]
    exact Or.inr .pending
  | toRunning _ hp _ t₁ hc =>
    rw [hp, hc]
    exact Or.inr .running
  | update _ hp hm t₁ t₂ hc =>
    rw [hp, hc]
    cases hm with
    | unsupported => exact Or.inr .failed
    | maxDuration => exact Or.inr .completed
    -- only the fifth failure in a row leaves the phase
    | @roundFailed _ _ _ _ msg _ =>
      obtain ⟨conditions, completionTime, heq⟩ :=
        Status.roundFailed_eq c.status msg (givesUp c) t₁ t₂
      rw [heq]
      cases givesUp c with
      | true => exact Or.inr .failed
      | false => exact Or.inl hp
    | @roundDone _ _ _ round _ t reason message _ =>
      obtain ⟨conditions, errorMessage, heq⟩ :=
        Status.roundDone_eq c.status t round (hashingEnabled c) reason message t₁ t₂
      rw [heq]
      exact Or.inr .completed
    | @roundContinue _ _ _ round _ t _ =>
      obtain ⟨conditions, errorMessage, heq⟩ :=
        Status.roundContinue_eq c.status t round (hashingEnabled c) t₁ t₂
      rw [heq]
      exact Or.inl hp

/-- When pods may be deleted, the chain is completed and the number of snapshots is the one the
    action gets. -/
theorem Mutation.completed {mutate : ℤ → ℤ → Status → Status} {pods : List PodInfo} {count : ℤ}
    (h : Mutation c tr mutate (some (pods, count))) (t₁ t₂ : ℤ) :
    (mutate t₁ t₂ c.status).phase = .completed ∧
      (mutate t₁ t₂ c.status).snapshotCount = count := by
  cases h with
  | maxDuration => exact ⟨rfl, rfl⟩
  | @roundDone _ _ _ round _ t reason message _ =>
    obtain ⟨conditions, errorMessage, heq⟩ :=
      Status.roundDone_eq c.status t round (hashingEnabled c) reason message t₁ t₂
    rw [heq]
    exact ⟨rfl, rfl⟩

end Turn

/-! ### Runs -/

/-- A new chain, whose limit is at least one. -/
theorem progress_zero {spec : Spec}
    (hlimit : ∀ limit, spec.capture.maxSnapshots = some limit → 1 ≤ limit) :
    Progress spec [] Status.zero where
  completionTime := by decide
  snapshots := le_rfl
  limit limit hmax := by
    have hpos := hlimit limit hmax
    show 0 ≤ limit
    omega
  failures := rfl
  failed h := absurd h (by decide)
  maxSnapshotsReached status h := absurd h (by simp [Status.zero, verdict])
  noMatchingPods status h := absurd h (by simp [Status.zero, verdict])
  nonneg := le_rfl
  attempts := le_rfl
  below _ limit hmax := hlimit limit hmax
  uncounted _ status := by simp [Status.zero, verdict]

/-- The run lemma. -/
theorem progress_of_history {spec : Spec}
    (hlimit : ∀ limit, spec.capture.maxSnapshots = some limit → 1 ≤ limit) {c₀ c : Chain}
    (h0 : c₀.status = Status.zero) {past : List Reconciled}
    (h : History (fun _ c _ => c.spec = spec) c₀ past c) (hbound : rounds past < 2 ^ 31) :
    Progress spec past c.status := by
  refine h.invariant (I := fun past c => rounds past < 2 ^ 31 → Progress spec past c.status) ?_ ?_
    (fun _ _ _ _ hI => hI) hbound
  · intro _
    rw [h0]
    exact progress_zero hlimit
  · intro past c tr c' hI hspec hturn hbound
    exact hturn.progress hspec (hI (lt_of_le_of_lt (rounds_le_append past _) hbound)) hbound

end CheckpointRestore.Forensic
