import CheckpointRestore.Forensic.Sequential

namespace CheckpointRestore.Forensic

open Go Interaction

/-!
# How many rounds a `maxSnapshots`-only capture can take

With a limit of `L` snapshots and no maximum duration three counters decide when a chain ends:
`snapshotCount` grows on rounds that capture, `attemptCount` bounds empty rounds, and
`failureCount` is reset by every round that does not fail.  Up to `L = 2 ^ 30` they allow
`10 * L - 5` rounds and no more; beyond that `attemptCount`, an `int32`, wraps around and
empty rounds go on.

* `Bounded` — the invariant over the three counters, kept by every exit;
* `listings_le_of_le` — the bound for `L ≤ 2 ^ 30`;
* `Counters`, `run_failed`, `run_empty`, `run_captured` — what a cluster can make a chain do;
* `exists_long_run` — a longer run for every larger `L`;
* `rounds_bounded_iff` — the bound holds exactly for the limits up to `2 ^ 30`.
-/

/-! ### The bound -/

/-- A chain that was just created, with `maxSnapshots = L`, no maximum duration, and no pod
    listing so far. -/
structure FreshChain (L : ℤ) (w : World) : Prop where
  status : w.chain.status = Status.zero
  maxSnapshots : w.chain.spec.capture.maxSnapshots = some L
  maxDuration : w.chain.spec.capture.maxDuration = none
  listings : w.listings = 0

/-- The counters of a running chain with limit `L`.  At most `L - 1` attempts captured
    something and at most `L - 1` were empty; every attempt and the current streak account
    for at most five rounds each. -/
structure RunningBound (L : ℤ) (st : Status) (listings : ℕ) : Prop where
  snapshots_nonneg : 0 ≤ st.snapshotCount
  snapshots_lt : st.snapshotCount < L
  snapshots_le : st.snapshotCount ≤ st.attemptCount
  empty_lt : st.attemptCount - st.snapshotCount < L
  failures_nonneg : 0 ≤ st.failureCount
  failures_lt : st.failureCount < 5
  rounds : (listings : ℤ) ≤ 5 * st.attemptCount + st.failureCount

/-- The invariant of a `maxSnapshots`-only run. -/
structure Bounded (L : ℤ) (w : World) : Prop where
  maxSnapshots : w.chain.spec.capture.maxSnapshots = some L
  maxDuration : w.chain.spec.capture.maxDuration = none
  counters : match w.chain.status.phase with
    | .completed | .failed => (w.listings : ℤ) ≤ 10 * L - 5
    | .other _ => False
    | _ => RunningBound L w.chain.status w.listings

variable {L : ℤ} {listings : ℕ}

theorem RunningBound.listings_le {st : Status} (h : RunningBound L st listings) :
    (listings : ℤ) + 1 ≤ 10 * L - 5 := by
  obtain ⟨h1, h2, h3, h4, h5, h6, h7⟩ := h
  omega

/-- A failed round that does not end the chain. -/
theorem RunningBound.failed {st st' : Status} (h : RunningBound L st listings)
    (hs : st'.snapshotCount = st.snapshotCount) (ha : st'.attemptCount = st.attemptCount)
    (hf : st'.failureCount = wrap32 (st.failureCount + 1))
    (hgo : wrap32 (st.failureCount + 1) < 5) : RunningBound L st' (listings + 1) := by
  obtain ⟨h1, h2, h3, h4, h5, h6, h7⟩ := h
  have hw : wrap32 (st.failureCount + 1) = st.failureCount + 1 :=
    wrap32_eq (by omega) (by omega)
  rw [hw] at hf hgo
  constructor <;> rw [hs, ha] at * <;> push_cast <;> omega

variable {chain : Chain}

/-- A round that did not fail and does not complete the chain.  An empty one did not reach
    the limit of attempts, a capturing one not that of snapshots. -/
theorem RunningBound.counted {st' : Status} {captured : ℕ} (hL : L ≤ 2 ^ 30)
    (h : RunningBound L chain.status listings) (hmax : chain.spec.capture.maxSnapshots = some L)
    (hdur : chain.spec.capture.maxDuration = none) (hcomp : completion chain captured = none)
    (ha : st'.attemptCount = wrap32 (chain.status.attemptCount + 1))
    (hs : st'.snapshotCount =
      if captured > 0 then wrap32 (chain.status.snapshotCount + 1)
      else chain.status.snapshotCount)
    (hf : st'.failureCount = 0) : RunningBound L st' (listings + 1) := by
  obtain ⟨h1, h2, h3, h4, h5, h6, h7⟩ := h
  -- neither counter wraps around
  have hwa : wrap32 (chain.status.attemptCount + 1) = chain.status.attemptCount + 1 :=
    wrap32_eq (by omega) (by omega)
  have hws : wrap32 (chain.status.snapshotCount + 1) = chain.status.snapshotCount + 1 :=
    wrap32_eq (by omega) (by omega)
  simp only [completion, hmax, hdur, hwa, hws] at hcomp
  rw [hwa] at ha
  rw [hws] at hs
  by_cases hc : captured > 0
  · rw [if_pos hc] at hs hcomp
    have hlt : chain.status.snapshotCount + 1 < L := by
      by_contra hge
      rw [if_pos (by omega)] at hcomp
      exact absurd hcomp (by simp)
    constructor <;> rw [ha, hs, hf] at * <;> push_cast <;> omega
  · rw [if_neg hc] at hs hcomp
    have hlt : chain.status.attemptCount + 1 < L := by
      by_contra hge
      rw [if_neg (by omega), if_pos ⟨by omega, trivial, by omega⟩] at hcomp
      exact absurd hcomp (by simp)
    constructor <;> rw [ha, hs, hf] at * <;> push_cast <;> omega

variable {w : World}

/-- The step lemma: every exit keeps the invariant. -/
theorem Bounded.exit (hL : L ≤ 2 ^ 30) {w' : World} (h : Bounded L w) (hexit : Exit w w') :
    Bounded L w' := by
  obtain ⟨hmax, hdur, hcnt⟩ := h
  have hrun : w.chain.status.phase = .running →
      RunningBound L w.chain.status w.listings := by
    intro hp
    rw [hp] at hcnt
    exact hcnt
  cases hexit with
  | idle hc hl => exact ⟨by rw [hc]; exact hmax, by rw [hc]; exact hdur, by rw [hc, hl]; exact hcnt⟩
  | pending hp t₁ t₂ hc hl =>
    rw [hp] at hcnt
    refine ⟨by rw [hc]; exact hmax, by rw [hc]; exact hdur, ?_⟩
    rw [hc, hl]
    exact ⟨hcnt.1, hcnt.2, hcnt.3, hcnt.4, hcnt.5, hcnt.6, hcnt.7⟩
  | running hp t₁ hc hl =>
    rw [hp] at hcnt
    refine ⟨by rw [hc]; exact hmax, by rw [hc]; exact hdur, ?_⟩
    rw [hc, hl]
    exact ⟨hcnt.1, hcnt.2, hcnt.3, hcnt.4, hcnt.5, hcnt.6, hcnt.7⟩
  | unsupported hp hu t₁ t₂ hc hl =>
    have hb := (hrun hp).listings_le
    refine ⟨by rw [hc]; exact hmax, by rw [hc]; exact hdur, ?_⟩
    rw [hc, hl]
    show (w.listings : ℤ) ≤ 10 * L - 5
    omega
  | maxDuration hp hs hd t₁ t₂ hc =>
    -- without a maximal duration this exit is not taken
    rw [hdur] at hd
    exact absurd hd (by simp)
  | roundFailed hp hs msg t₁ t₂ hc hl =>
    obtain ⟨conditions, completionTime, heq⟩ :=
      Status.roundFailed_eq w.chain.status msg (givesUp w.chain) t₁ t₂
    refine ⟨by rw [hc]; exact hmax, by rw [hc]; exact hdur, ?_⟩
    rw [hc, hl, heq]
    -- the chain gives up, or has failed fewer than five times in a row
    by_cases hgive : givesUp w.chain = true
    · rw [hgive]
      show ((w.listings + 1 : ℕ) : ℤ) ≤ 10 * L - 5
      have hb := (hrun hp).listings_le
      push_cast
      exact hb
    · have hgo : wrap32 (w.chain.status.failureCount + 1) < 5 := by
        simpa [givesUp, hdur, maxConsecutiveCheckpointFailures] using hgive
      rw [Bool.not_eq_true] at hgive
      rw [hgive]
      simp only [Chain.update, Chain.store, Status.stored_phase, Bool.false_eq_true, if_false, hp]
      exact (hrun hp).failed rfl rfl rfl hgo
  | @roundDone hp hs round hr t reason message hcomp t₁ t₂ hc hl =>
    obtain ⟨conditions, errorMessage, heq⟩ := Status.roundDone_eq w.chain.status t round
      (hashingEnabled w.chain) reason message t₁ t₂
    refine ⟨by rw [hc]; exact hmax, by rw [hc]; exact hdur, ?_⟩
    rw [hc, hl, heq]
    show ((w.listings + 1 : ℕ) : ℤ) ≤ 10 * L - 5
    have hb := (hrun hp).listings_le
    push_cast
    exact hb
  | @roundContinue hp hs round hr t hcomp t₁ t₂ hc hl =>
    obtain ⟨conditions, errorMessage, heq⟩ := Status.roundContinue_eq w.chain.status t round
      (hashingEnabled w.chain) t₁ t₂
    refine ⟨by rw [hc]; exact hmax, by rw [hc]; exact hdur, ?_⟩
    rw [hc, hl, heq]
    simp only [Chain.update, Chain.store, Status.stored_phase, Status.countRound, hp]
    exact (hrun hp).counted hL hmax hdur hcomp rfl rfl rfl

variable {w₀ : World}

/-- The bound for limits up to `2 ^ 30`. -/
theorem listings_le_of_le (hpos : 1 ≤ L) (hL : L ≤ 2 ^ 30) (h0 : FreshChain L w₀)
    (h : SeqRun (fun _ => True) w₀ w) : (w.listings : ℤ) ≤ 10 * L - 5 := by
  have hinit : Bounded L w₀ := by
    refine ⟨h0.maxSnapshots, h0.maxDuration, ?_⟩
    rw [h0.status, h0.listings]
    constructor <;> simp [Status.zero] <;> omega
  have hinv : Bounded L w := h.invariant hinit (fun w w' hI _ hexit => hI.exit hL hexit)
  have hcnt := hinv.counters
  cases hp : w.chain.status.phase with
  | completed => rw [hp] at hcnt; exact hcnt
  | failed => rw [hp] at hcnt; exact hcnt
  | other s => rw [hp] at hcnt; exact absurd hcnt id
  | empty =>
    rw [hp] at hcnt
    have hb := RunningBound.listings_le hcnt
    omega
  | pending =>
    rw [hp] at hcnt
    have hb := RunningBound.listings_le hcnt
    omega
  | running =>
    rw [hp] at hcnt
    have hb := RunningBound.listings_le hcnt
    omega

/-! ### What a cluster can make a chain do -/

/-- A running chain with its spec and its counters. -/
structure Counters (spec : Spec) (snapshots attempts failures : ℤ) (w : World) : Prop where
  spec : w.chain.spec = spec
  phase : w.chain.status.phase = .running
  snapshots : w.chain.status.snapshotCount = snapshots
  attempts : w.chain.status.attemptCount = attempts
  failures : w.chain.status.failureCount = failures

/-- A run of `n` rounds leads from `w` to `w'` and these counters. -/
def Rounds (spec : Spec) (snapshots attempts failures : ℤ) (n : ℕ) (w w' : World) : Prop :=
  SeqRun (fun _ => True) w w' ∧ Counters spec snapshots attempts failures w' ∧
    w'.listings = w.listings + n

/-- A pod with one container that the spec selects. -/
def selectedPod (spec : Spec) : PodInfo where
  name := "pod"
  nodeName := "node"
  running := true
  containers := [spec.containerNames.headD "container"]

/-- A cluster whose clock jumps to the next round. -/
def dueCluster (w : World) (pods : List PodInfo) (checkpoint : Except String String) : Cluster where
  tick := (w.chain.status.lastSnapshotTime.getD 0 + captureInterval w.chain - w.clock).toNat
  pods
  checkpoint _ := checkpoint
  logs _ := .error "no helper pod"

theorem targets_selectedPod (chain : Chain) :
    targets chain [selectedPod chain.spec]
      = [⟨"pod", "node", chain.spec.containerNames.headD "container"⟩] := by
  unfold targets filterContainers selectedPod
  cases h : chain.spec.containerNames with
  | nil => simp
  | cons c cs => simp

variable {c : Cluster}

section Rounds
variable {spec : Spec} {snapshots attempts failures : ℤ} {w : World}
  (hs : spec.hashAlgorithm = "" ∨ spec.hashAlgorithm = "sha256")
  (hd : spec.capture.maxDuration = none)

/-- A cluster whose clock jumps far enough never makes the reconciler wait. -/
theorem exec_waitForInterval (pods : List PodInfo) (checkpoint : Except String String) :
    ∃ clock, exec (dueCluster w pods checkpoint).answer (waitForInterval w.chain) w
      = (none, { w with clock }) := by
  unfold waitForInterval
  cases hlast : w.chain.status.lastSnapshotTime with
  | none => exact ⟨w.clock, rfl⟩
  | some last =>
    have hdue : ¬ (w.clock + ((dueCluster w pods checkpoint).tick : ℤ)
        < last + captureInterval w.chain) := by
      simp only [dueCluster, hlast, Option.getD_some]
      omega
    refine ⟨w.clock + (dueCluster w pods checkpoint).tick, ?_⟩
    dsimp only
    rw [exec_bind]
    show exec _ (if w.clock + ((dueCluster w pods checkpoint).tick : ℤ)
      < last + captureInterval w.chain then _ else _) _ = _
    rw [if_neg hdue]
    rfl

include hs hd in
/-- A due chain goes on to its capture round. -/
theorem dueCluster_reconcile (h : Counters spec snapshots attempts failures w)
    (pods : List PodInfo) (checkpoint : Except String String) :
    ∃ clock, (dueCluster w pods checkpoint).reconcile w
      = (exec (dueCluster w pods checkpoint).answer (capture w.chain) { w with clock }).2 := by
  have hu : ¬ (w.chain.spec.hashAlgorithm ≠ "" ∧ w.chain.spec.hashAlgorithm ≠ "sha256") := by
    rw [h.spec]
    rcases hs with hs | hs <;> simp [hs]
  have hd' : w.chain.spec.capture.maxDuration = none := by rw [h.spec]; exact hd
  obtain ⟨clock, hwait⟩ := exec_waitForInterval (w := w) pods checkpoint
  unfold Cluster.reconcile reconcile
  rw [exec_bind]
  show ∃ clock, (exec _ (reconcilePhase w.chain) w).2 = _
  unfold reconcilePhase
  rw [h.phase]
  show ∃ clock, (exec _ (reconcileRunning w.chain) w).2 = _
  unfold reconcileRunning
  rw [if_neg hu, exec_bind]
  unfold maxDurationElapsed
  rw [hd']
  show ∃ clock, (exec _ (captureWhenDue w.chain) w).2 = _
  unfold captureWhenDue
  rw [exec_bind, hwait]
  exact ⟨clock, rfl⟩

/-- In a cluster that answers, a status update goes through at once. -/
theorem exec_updateChainStatus (c : Cluster) (mutate : ℤ → ℤ → Status → Status) (w : World) :
    exec c.answer (updateChainStatus mutate defaultRetrySteps) w
      = (none, { w with
          chain := w.chain.update
            (mutate (w.clock + c.tick) (w.clock + c.tick + c.tick) w.chain.status)
          clock := w.clock + c.tick + c.tick }) := rfl

/-- The capture round, given what its loop returns. -/
theorem exec_capture {clock : ℤ} {result : Except String Round}
    (hloop : exec c.answer (captureRound chain (targets chain (c.pods.filter PodInfo.running))
      (Round.start chain)) { w with listings := w.listings + 1 } =
        (result, { w with listings := w.listings + 1, clock })) :
    exec c.answer (capture chain) w
      = exec c.answer (match result with
          | .error e => finishFailed chain e
          | .ok round => finishRound chain (c.pods.filter PodInfo.running) round)
        { w with listings := w.listings + 1, clock } := by
  unfold capture
  rw [exec_bind]
  show exec _ (captureRound chain (targets chain (c.pods.filter PodInfo.running))
    (Round.start chain) >>= _) { w with listings := w.listings + 1 } = _
  rewrite [exec_bind, hloop]
  cases result <;> rfl

/-- A failed round is recorded. -/
theorem exec_finishFailed (c : Cluster) (chain : Chain) (e : String) (w : World) :
    ∃ t₁ t₂ clock, (exec c.answer (finishFailed chain e) w).2
      = { w with
          chain := w.chain.update (w.chain.status.roundFailed e (givesUp chain) t₁ t₂)
          clock } := by
  refine ⟨w.clock + c.tick, w.clock + c.tick + c.tick, w.clock + c.tick + c.tick, ?_⟩
  unfold finishFailed
  rw [exec_bind, exec_updateChainStatus]
  show (exec _ (if givesUp chain = true then _ else _) _).2 = _
  split_ifs <;> rfl

/-- A round that does not complete the chain is recorded. -/
theorem exec_finishRound (c : Cluster) (pods : List PodInfo) {round : Round}
    (hcomp : completion chain round.captured = none) (w : World) :
    ∃ t t₁ t₂ clock, (exec c.answer (finishRound chain pods round) w).2
      = { w with
          chain := w.chain.update
            (w.chain.status.roundContinue t round (hashingEnabled chain) t₁ t₂)
          clock } := by
  refine ⟨w.clock + c.tick, w.clock + c.tick + c.tick, w.clock + c.tick + c.tick + c.tick,
    w.clock + c.tick + c.tick + c.tick, ?_⟩
  unfold finishRound
  rw [exec_bind, hcomp]
  show (exec _ (updateChainStatus _ _ >>= _) _).2 = _
  rw [exec_bind, exec_updateChainStatus]
  rfl

/-- A container whose checkpoint fails ends the loop. -/
theorem exec_captureRound_error {target : Target} {e : String}
    (hc : c.checkpoint target.container = .error e) (rest : List Target) (round : Round)
    (w : World) : exec c.answer (captureRound chain (target :: rest) round) w = (.error e, w) := by
  have hcall : exec c.answer
      (createCheckpoint chain.spec.ns target.pod target.container target.node) w
      = (.error e, w) := by
    rw [← hc]; rfl
  unfold captureRound captureContainer
  rw [exec_bind, exec_bind, hcall]
  rfl

/-- A single container whose checkpoint succeeds makes a round that captured something, hashed
    or not. -/
theorem exec_captureRound_ok {target : Target} {path e : String}
    (hc : c.checkpoint target.container = .ok path) (hl : c.logs path = .error e) (w : World) :
    ∃ (round : Round) (clock : ℤ), round.captured = 1 ∧
      exec c.answer (captureRound chain [target] (Round.start chain)) w
        = (.ok round, { w with clock }) := by
  have hcall : exec c.answer
      (createCheckpoint chain.spec.ns target.pod target.container target.node) w
        = (.ok path, w) := by
    rw [← hc]; rfl
  have hlogs : ∀ w', exec c.answer (helperLogs chain.spec.ns target.node path) w'
      = (.error e, w') := by
    intro w'; rw [← hl]; rfl
  obtain ⟨round, hcap, hround⟩ : ∃ round : Round, round.captured = 1 ∧
      exec c.answer (captureContainer chain (Round.start chain) target) w
        = (.ok round, { w with clock := w.clock + c.tick }) := by
    unfold captureContainer computeChecksum
    rw [exec_bind, hcall]
    show ∃ round : Round, round.captured = 1 ∧ exec _ (now >>= _) w = _
    rw [exec_bind]
    show ∃ round : Round, round.captured = 1 ∧
      exec _ (if hashingEnabled chain = true then _ else _) _ = _
    split_ifs
    · rw [exec_bind, exec_bind, hlogs]
      exact ⟨_, rfl, rfl⟩
    · exact ⟨_, rfl, rfl⟩
  refine ⟨round, w.clock + c.tick, hcap, ?_⟩
  unfold captureRound
  rw [exec_bind, hround]
  rfl

include hs hd in
/-- A round whose only checkpoint fails, before the fifth failure in a row. -/
theorem run_failed (h : Counters spec snapshots attempts failures w) (h0 : 0 ≤ failures)
    (h5 : failures + 1 < 5) :
    ∃ w', Rounds spec snapshots attempts (failures + 1) 1 w w' := by
  have hw : wrap32 (failures + 1) = failures + 1 := wrap32_eq (by omega) (by omega)
  have hgive : givesUp w.chain = false := by
    simp [givesUp, h.failures, hw, maxConsecutiveCheckpointFailures, h5]
  set c := dueCluster w [selectedPod w.chain.spec] (.error "kubelet unavailable") with hc
  obtain ⟨clock, hrec⟩ := dueCluster_reconcile hs hd h [selectedPod w.chain.spec]
    (.error "kubelet unavailable")
  have hloop : exec c.answer (captureRound w.chain (targets w.chain [selectedPod w.chain.spec])
      (Round.start w.chain)) { w with clock, listings := w.listings + 1 }
        = (.error "kubelet unavailable", { w with clock, listings := w.listings + 1 }) := by
    rw [targets_selectedPod]
    exact exec_captureRound_error rfl _ _ _
  obtain ⟨t₁, t₂, clock', hfin⟩ := exec_finishFailed c w.chain "kubelet unavailable"
    { w with clock, listings := w.listings + 1 }
  obtain ⟨conditions, completionTime, heq⟩ := Status.roundFailed_eq w.chain.status
    "kubelet unavailable" (givesUp w.chain) t₁ t₂
  have hend : c.reconcile w = _ := hrec.trans
    ((congrArg Prod.snd (exec_capture (w := { w with clock }) hloop)).trans hfin)
  refine ⟨c.reconcile w, SeqRun.refl.cluster trivial c, ?_, by rw [hend]⟩
  rw [hend, heq, hgive]
  exact ⟨h.spec, h.phase, h.snapshots, h.attempts, by
    show wrap32 (w.chain.status.failureCount + 1) = failures + 1
    rw [h.failures, hw]⟩

include hs hd in
/-- A round that did not fail and does not complete the chain, whatever its loop returns. -/
theorem run_counted (h : Counters spec snapshots attempts failures w) (pods : List PodInfo)
    (checkpoint : Except String String) (captured : ℕ)
    (hloop : ∀ w', ∃ (round : Round) (clock : ℤ), round.captured = captured ∧
      exec (dueCluster w pods checkpoint).answer
        (captureRound w.chain (targets w.chain (pods.filter PodInfo.running))
          (Round.start w.chain)) w' = (.ok round, { w' with clock }))
    (hcomp : completion w.chain captured = none) :
    ∃ w', Rounds spec (if captured > 0 then wrap32 (snapshots + 1) else snapshots)
      (wrap32 (attempts + 1)) 0 1 w w' := by
  set c := dueCluster w pods checkpoint with hc
  obtain ⟨clock, hrec⟩ := dueCluster_reconcile hs hd h pods checkpoint
  obtain ⟨round, clock₁, rfl, hround⟩ := hloop { w with clock, listings := w.listings + 1 }
  obtain ⟨t, t₁, t₂, clock₂, hfin⟩ := exec_finishRound c (pods.filter PodInfo.running) hcomp
    { w with clock := clock₁, listings := w.listings + 1 }
  obtain ⟨conditions, errorMessage, heq⟩ := Status.roundContinue_eq w.chain.status t round
    (hashingEnabled w.chain) t₁ t₂
  have hend : c.reconcile w = _ := hrec.trans
    ((congrArg Prod.snd (exec_capture (w := { w with clock }) hround)).trans hfin)
  refine ⟨c.reconcile w, SeqRun.refl.cluster trivial c, ?_, by rw [hend]⟩
  rw [hend, heq, ← h.snapshots, ← h.attempts]
  exact ⟨h.spec, h.phase, rfl, rfl, rfl⟩

variable {L : ℤ} (hmax : spec.capture.maxSnapshots = some L)

/-- A round completes nothing while both counters stay below the limit. -/
theorem completion_eq_none {captured : ℕ} (hmax : chain.spec.capture.maxSnapshots = some L)
    (hsn : (if captured > 0 then wrap32 (chain.status.snapshotCount + 1)
      else chain.status.snapshotCount) < L)
    (hat : captured = 0 → wrap32 (chain.status.attemptCount + 1) < L) :
    completion chain captured = none := by
  unfold completion
  rw [hmax]
  dsimp only
  rw [if_neg (not_le.mpr hsn), if_neg (fun h => absurd h.2.2 (not_le.mpr (hat h.1)))]

include hs hd hmax in
/-- A round that lists no pods, while the attempts stay below the limit. -/
theorem run_empty (h : Counters spec snapshots attempts failures w) (hsn : snapshots < L)
    (hat : wrap32 (attempts + 1) < L) :
    ∃ w', Rounds spec snapshots (wrap32 (attempts + 1)) 0 1 w w' := by
  have hcomp : completion w.chain 0 = none := by
    apply completion_eq_none (L := L)
    · rw [h.spec]; exact hmax
    · rw [if_neg (by omega), h.snapshots]; exact hsn
    · rw [h.attempts]; exact fun _ => hat
  exact run_counted hs hd h [] (.error "") 0
    (fun w' => ⟨Round.start w.chain, w'.clock, rfl, rfl⟩) hcomp

include hs hd hmax in
/-- A round that captures a container, while the snapshots stay below the limit. -/
theorem run_captured (h : Counters spec snapshots attempts failures w)
    (hsn : wrap32 (snapshots + 1) < L) :
    ∃ w', Rounds spec (wrap32 (snapshots + 1)) (wrap32 (attempts + 1)) 0 1 w w' := by
  have hcomp : completion w.chain 1 = none := by
    apply completion_eq_none (L := L)
    · rw [h.spec]; exact hmax
    · rw [if_pos (by omega), h.snapshots]; exact hsn
    · exact fun h => absurd h (by omega)
  refine run_counted hs hd h [selectedPod w.chain.spec] (.ok "/ckpt/a.tar") 1 ?_ hcomp
  intro w'
  show ∃ (round : Round) (clock : ℤ), round.captured = 1 ∧
    exec _ (captureRound w.chain (targets w.chain [selectedPod w.chain.spec]) _) w' = _
  rw [targets_selectedPod]
  exact exec_captureRound_ok rfl rfl w'

/-! ### A long run -/

/-- Runs of rounds compose. -/
theorem Rounds.trans {s₁ a₁ f₁ s₂ a₂ f₂ : ℤ} {n₁ n₂ : ℕ} {w₁ w₂ : World}
    (h₁ : Rounds spec s₁ a₁ f₁ n₁ w₀ w₁) (h₂ : Rounds spec s₂ a₂ f₂ n₂ w₁ w₂) :
    Rounds spec s₂ a₂ f₂ (n₁ + n₂) w₀ w₂ := by
  refine ⟨h₁.1.trans h₂.1, h₂.2.1, ?_⟩
  rw [h₂.2.2, h₁.2.2]
  omega

include hs hd in
/-- Four failed rounds in a row. -/
theorem run_four_failed (h : Counters spec snapshots attempts 0 w) :
    ∃ w', Rounds spec snapshots attempts 4 4 w w' := by
  obtain ⟨w₁, h₁⟩ := run_failed hs hd h (by omega) (by omega)
  obtain ⟨w₂, h₂⟩ := run_failed hs hd h₁.2.1 (by omega) (by omega)
  obtain ⟨w₃, h₃⟩ := run_failed hs hd h₂.2.1 (by omega) (by omega)
  obtain ⟨w₄, h₄⟩ := run_failed hs hd h₃.2.1 (by omega) (by omega)
  exact ⟨w₄, ((h₁.trans h₂).trans h₃).trans h₄⟩

include hs hd hmax in
/-- `k` empty rounds, each after four failures, while the attempts stay below the limit. -/
theorem run_empty_times (hL : L < 2 ^ 31) (hsn : snapshots < L) (k : ℕ)
    (h : Counters spec snapshots attempts 0 w) (h0 : 0 ≤ attempts) (hk : attempts + k < L) :
    ∃ w', Rounds spec snapshots (attempts + k) 0 (5 * k) w w' := by
  induction k with
  | zero => exact ⟨w, .refl, by simpa using h, rfl⟩
  | succ k ih =>
    obtain ⟨w₁, h₁⟩ := ih (by push_cast at hk; omega)
    obtain ⟨w₂, h₂⟩ := run_four_failed hs hd h₁.2.1
    have hw : wrap32 (attempts + k + 1) = attempts + k + 1 :=
      wrap32_eq (by omega) (by push_cast at hk; omega)
    obtain ⟨w₃, h₃⟩ := run_empty hs hd hmax h₂.2.1 hsn (by rw [hw]; push_cast at hk; omega)
    rw [hw] at h₃
    refine ⟨w₃, ?_⟩
    have hall := (h₁.trans h₂).trans h₃
    have hn : 5 * k + 4 + 1 = 5 * (k + 1) := by ring
    rw [hn] at hall
    push_cast
    rw [← add_assoc]
    exact hall

include hs hd hmax in
/-- `k` capturing rounds, each after four failures: the attempts may wrap around. -/
theorem run_captured_times (hL : L < 2 ^ 31) (k : ℕ)
    (h : Counters spec snapshots (wrap32 attempts) 0 w) (h0 : 0 ≤ snapshots)
    (hk : snapshots + k < L) :
    ∃ w', Rounds spec (snapshots + k) (wrap32 (attempts + k)) 0 (5 * k) w w' := by
  induction k with
  | zero => exact ⟨w, .refl, by simpa using h, rfl⟩
  | succ k ih =>
    obtain ⟨w₁, h₁⟩ := ih (by push_cast at hk; omega)
    obtain ⟨w₂, h₂⟩ := run_four_failed hs hd h₁.2.1
    have hw : wrap32 (snapshots + k + 1) = snapshots + k + 1 :=
      wrap32_eq (by omega) (by push_cast at hk; omega)
    obtain ⟨w₃, h₃⟩ := run_captured hs hd hmax h₂.2.1 (by rw [hw]; push_cast at hk; omega)
    rw [hw, wrap32_add] at h₃
    refine ⟨w₃, ?_⟩
    have hall := (h₁.trans h₂).trans h₃
    have hn : 5 * k + 4 + 1 = 5 * (k + 1) := by ring
    rw [hn] at hall
    push_cast
    rw [← add_assoc, ← add_assoc]
    exact hall

include hs hd hmax in
/-- One more empty round after the attempts have wrapped around. -/
theorem run_empty_wrapped (hsn : snapshots < L) (h : Counters spec snapshots (wrap32 attempts) 0 w)
    (h₁ : 2 ^ 31 ≤ attempts + 1) (h₂ : attempts + 1 < 2 ^ 32) (hpos : 0 ≤ L) :
    ∃ w', Rounds spec snapshots (wrap32 (attempts + 1)) 0 5 w w' := by
  obtain ⟨w₁, hw₁⟩ := run_four_failed hs hd h
  obtain ⟨w₂, hw₂⟩ := run_empty hs hd hmax hw₁.2.1 hsn
    (by rw [wrap32_add, wrap32_over h₁ h₂]; omega)
  rw [wrap32_add] at hw₂
  exact ⟨w₂, hw₁.trans hw₂⟩

end Rounds

/-- Two reconciles bring a new chain to `Running`. -/
theorem FreshChain.run (h0 : FreshChain L w₀) :
    ∃ w, SeqRun (fun _ => True) w₀ w ∧ Counters w₀.chain.spec 0 0 0 w ∧ w.listings = 0 := by
  obtain ⟨⟨name, generation, resourceVersion, spec, status⟩, clock, listings⟩ := w₀
  obtain ⟨hst, -, -, hl⟩ := h0
  dsimp only at hst hl
  subst hst hl
  let c : Cluster := ⟨0, [], fun _ => .error "", fun _ => .error ""⟩
  refine ⟨c.reconcile (c.reconcile _), (SeqRun.refl.cluster trivial c).cluster trivial c, ?_, rfl⟩
  exact ⟨rfl, rfl, rfl, rfl, rfl⟩

/-- **A limit above `2 ^ 30` allows a longer run**: `L - 1` empty rounds, then `L - 1` rounds
    that capture, after which the attempts have wrapped around and empty rounds go on; four
    failures before each round. -/
theorem exists_long_run (hlow : 2 ^ 30 < L) (hhigh : L < 2 ^ 31) (h0 : FreshChain L w₀)
    (hs : supported w₀.chain) : ∃ w, SeqRun (fun _ => True) w₀ w ∧ (w.listings : ℤ) = 10 * L := by
  have hs' : w₀.chain.spec.hashAlgorithm = "" ∨ w₀.chain.spec.hashAlgorithm = "sha256" := by
    by_contra hno
    exact hs (not_or.mp hno)
  have hd := h0.maxDuration
  have hmax := h0.maxSnapshots
  obtain ⟨k, hk⟩ := Int.eq_ofNat_of_zero_le (show 0 ≤ L - 1 by omega)
  obtain ⟨w, hrun, hcnt, hl⟩ := h0.run
  -- the empty rounds
  obtain ⟨w₁, h₁⟩ := run_empty_times hs' hd hmax hhigh (by omega) k hcnt le_rfl (by omega)
  -- the capturing rounds
  have hc₁ : Counters w₀.chain.spec 0 (wrap32 k) 0 w₁ := by
    have := h₁.2.1
    rwa [zero_add, ← wrap32_eq (x := (k : ℤ)) (by omega) (by omega)] at this
  obtain ⟨w₂, h₂⟩ := run_captured_times hs' hd hmax hhigh k hc₁ le_rfl (by omega)
  -- two more empty rounds
  obtain ⟨w₃, h₃⟩ := run_empty_wrapped hs' hd hmax (by omega) h₂.2.1 (by omega) (by omega)
    (by omega)
  obtain ⟨w₄, h₄⟩ := run_empty_wrapped hs' hd hmax (by omega) h₃.2.1 (by omega) (by omega)
    (by omega)
  refine ⟨w₄, hrun.trans (((h₁.1.trans h₂.1).trans h₃.1).trans h₄.1), ?_⟩
  rw [h₄.2.2, h₃.2.2, h₂.2.2, h₁.2.2, hl]
  push_cast
  omega

/-- A chain with an unsupported hash algorithm never gets to a round. -/
theorem listings_eq_zero (h0 : FreshChain L w₀) (hu : ¬ supported w₀.chain)
    (h : SeqRun (fun _ => True) w₀ w) : w.listings = 0 := by
  have hinv : w.chain.spec = w₀.chain.spec ∧ w.chain.spec.capture.maxDuration = none ∧
      w.listings = 0 := by
    refine h.invariant (I := fun w => w.chain.spec = w₀.chain.spec ∧
      w.chain.spec.capture.maxDuration = none ∧ w.listings = 0)
      ⟨rfl, h0.maxDuration, h0.listings⟩ ?_
    rintro w w' ⟨hspec, hdur, hl⟩ - hexit
    have hno : ¬ supported w.chain := by
      unfold supported at hu ⊢
      rw [hspec]
      exact hu
    cases hexit with
    | idle hc hl' => rw [hc, hl']; exact ⟨hspec, hdur, hl⟩
    | pending hp t₁ t₂ hc hl' => rw [hc, hl']; exact ⟨hspec, hdur, hl⟩
    | running hp t₁ hc hl' => rw [hc, hl']; exact ⟨hspec, hdur, hl⟩
    | unsupported hp hu' t₁ t₂ hc hl' => rw [hc, hl']; exact ⟨hspec, hdur, hl⟩
    | maxDuration hp hs hd t₁ t₂ hc => exact absurd hs hno
    | roundFailed hp hs => exact absurd hs hno
    | roundDone hp hs => exact absurd hs hno
    | roundContinue hp hs => exact absurd hs hno
  exact hinv.2.2

/-- **A `maxSnapshots`-only capture takes at most `10 * L - 5` rounds** in every run, exactly
    when `L` is at most `2 ^ 30` (or the hash algorithm is unsupported and no round ever
    runs).  `L` is any value the field can hold. -/
theorem rounds_bounded_iff {L : ℤ} (hpos : 1 ≤ L) (hhigh : L < 2 ^ 31) {w₀ : World}
    (h0 : FreshChain L w₀) :
    (∀ w, SeqRun (fun _ => True) w₀ w → (w.listings : ℤ) ≤ 10 * L - 5)
      ↔ L ≤ 2 ^ 30 ∨ ¬ supported w₀.chain := by
  constructor
  · intro hall
    by_contra hno
    rw [not_or, not_not, not_le] at hno
    obtain ⟨w, hrun, hl⟩ := exists_long_run hno.1 hhigh h0 hno.2
    have hle := hall w hrun
    omega
  · rintro (hL | hu) w hrun
    · exact listings_le_of_le hpos hL h0 hrun
    · rw [listings_eq_zero h0 hu hrun]
      push_cast
      omega

/-- A chain without hashing, with the limit `L`. -/
def limitedWorld (L : ℤ) : World where
  chain :=
    evidenceChain { interval := none, maxSnapshots := some L, maxDuration := none } "" .none
  clock := 0
  listings := 0

theorem limitedWorld_fresh (L : ℤ) : FreshChain L (limitedWorld L) := ⟨rfl, rfl, rfl, rfl⟩

/-- The bound at work for a limit of three. -/
theorem rounds_bounded_iff_three :
    FreshChain 3 (limitedWorld 3) ∧
    ∀ w, SeqRun (fun _ => True) (limitedWorld 3) w → (w.listings : ℤ) ≤ 25 := by
  have hiff := rounds_bounded_iff (L := 3) (by omega) (by omega) (limitedWorld_fresh 3)
  exact ⟨limitedWorld_fresh 3, hiff.mpr (Or.inl (by omega))⟩

/-- With the limit `2 ^ 30 + 1` the bound is broken. -/
theorem rounds_exceed_bound :
    ∃ w, SeqRun (fun _ => True) (limitedWorld (2 ^ 30 + 1)) w ∧
      10 * (2 ^ 30 + 1) - 5 < (w.listings : ℤ) := by
  obtain ⟨w, hrun, hl⟩ := exists_long_run (L := 2 ^ 30 + 1) (by omega) (by omega)
    (limitedWorld_fresh _) (by unfold supported limitedWorld evidenceChain; simp)
  exact ⟨w, hrun, by omega⟩

end CheckpointRestore.Forensic
