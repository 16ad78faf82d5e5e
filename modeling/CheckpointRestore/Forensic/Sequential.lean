import CheckpointRestore.Forensic.Reconcile

namespace CheckpointRestore.Forensic

open Go Interaction

/-!
# Sequential runs — fresh reads, status writes that succeed

The world in which the reconciler runs alone: `Get` returns what is stored, a status write
replaces it, the clock never goes back, and the cluster (pod listings, checkpoints, helper
logs, deletions) answers as it likes.

* `sequential` — that world, as a contract;
* `Captured` — the rounds the capture loop can return;
* `Exit` — everything one `Reconcile` can do to the stored object, case by case;
* `reconcile_exit` — the inversion lemma: every run of `reconcile` is one of the exits;
* `SeqRun` — runs of reconciles.
-/

/-- The stored object, the clock, and how many pod listings have succeeded. -/
structure World where
  chain : Chain
  clock : ℤ
  listings : ℕ

/-- A stored object after a status write. -/
def Chain.store (chain : Chain) (st : Status) : Chain :=
  { chain with status := st.stored, resourceVersion := chain.resourceVersion + 1 }

/-- The answers and effects of the operations. -/
def act : (op : sig.Op) → World → sig.Reply op → World → Prop
  | .get, w, r, w' => r = .found w.chain ∧ w' = w
  | .statusUpdate chain, w, r, w' => r = .ok ∧ w' = { w with chain := w.chain.store chain.status }
  | .now, w, t, w' => w.clock ≤ t ∧ w' = { w with clock := t }
  | .listPods _ _, w, r, w' => w' = { w with listings := w.listings + if r.isOk then 1 else 0 }
  | .createCheckpoint _ _ _ _, w, _, w' => w' = w
  | .helperLogs _ _ _, w, _, w' => w' = w
  | .deletePod _, w, _, w' => w' = w

/-- The sequential world as a contract: nothing is owed, every such answer is possible. -/
def sequential : Contract sig World where
  pre _ _ := True
  post := act

/-! ### The operations -/

variable {chain : Chain} {ns : String}

section Ops
variable {w : World}

theorem wp_get {Q : GetReply → World → Prop} (h : Q (.found w.chain) w) :
    wp sequential get Q w := by
  refine ⟨trivial, ?_⟩
  rintro r w' ⟨rfl, rfl⟩
  exact h

theorem wp_statusUpdate {Q : UpdateReply → World → Prop}
    (h : Q .ok { w with chain := w.chain.store chain.status }) :
    wp sequential (statusUpdate chain) Q w := by
  refine ⟨trivial, ?_⟩
  rintro r w' ⟨rfl, rfl⟩
  exact h

theorem wp_now {Q : ℤ → World → Prop} (h : ∀ t, Q t { w with clock := t }) :
    wp sequential now Q w := by
  refine ⟨trivial, ?_⟩
  rintro t w' ⟨-, rfl⟩
  exact h t

theorem wp_listPods {selector : String} {Q : Except String (List PodInfo) → World → Prop}
    (herr : ∀ e, Q (.error e) w)
    (hok : ∀ pods, Q (.ok pods) { w with listings := w.listings + 1 }) :
    wp sequential (listPods ns selector) Q w := by
  refine ⟨trivial, ?_⟩
  rintro r w' rfl
  cases r with
  | error e => exact herr e
  | ok pods => exact hok pods

theorem wp_createCheckpoint {pod container node : String}
    {Q : Except String String → World → Prop} (h : ∀ r, Q r w) :
    wp sequential (createCheckpoint ns pod container node) Q w := by
  refine ⟨trivial, ?_⟩
  rintro r w' rfl
  exact h r

theorem wp_getMatchingPods {selector : String} {Q : Except String (List PodInfo) → World → Prop}
    (herr : ∀ e, Q (.error e) w)
    (hok : ∀ pods, Q (.ok pods) { w with listings := w.listings + 1 }) :
    wp sequential (getMatchingPods ns selector) Q w := by
  unfold getMatchingPods
  rw [wp_bind]
  apply wp_listPods
  · exact herr
  · exact fun pods => hok _

/-- A checksum comes back empty only as an error. -/
theorem wp_computeChecksum {node path : String} {Q : Except String String → World → Prop}
    (herr : ∀ e, Q (.error e) w) (hok : ∀ hash, hash ≠ "" → Q (.ok hash) w) :
    wp sequential (computeChecksum ns node path) Q w := by
  unfold computeChecksum
  rw [wp_bind]
  refine ⟨trivial, ?_⟩
  rintro r w' rfl
  cases r with
  | error e => exact herr e
  | ok logs =>
    show Q (parseSHA256FromLogs logs) w'
    cases h : parseSHA256FromLogs logs with
    | error e => exact herr e
    | ok hash => exact hok hash (parseSHA256FromLogs_ne_empty h)

/-- The post-snapshot action leaves the stored object alone. -/
theorem wp_executePostSnapshotAction {pods : List PodInfo} {n : ℤ}
    {Q : Option String → World → Prop} (h : ∀ r, Q r w) :
    wp sequential (executePostSnapshotAction chain pods n) Q w := by
  have hdel : ∀ pods, wp sequential (deletePods pods) Q w := by
    intro pods
    induction pods with
    | nil => exact h none
    | cons pod pods ih =>
      unfold deletePods
      rw [wp_bind]
      refine ⟨trivial, ?_⟩
      rintro r w' rfl
      cases r with
      | failed e => exact h (some e)
      | ok => exact ih
      | notFound => exact ih
  unfold executePostSnapshotAction
  split_ifs
  · exact h none
  · exact h none
  · exact hdel pods

/-- The stored object after `updateChainStatus` with the closure `mutate`. -/
def Chain.update (chain : Chain) (st : Status) : Chain :=
  chain.store { st with observedGeneration := chain.generation }

theorem Chain.update_records (chain : Chain) (st : Status) :
    (chain.update st).status.records = st.stored.records := rfl

/-- With fresh reads and writes that succeed, the first attempt goes through. -/
theorem wp_updateChainStatus {mutate : ℤ → ℤ → Status → Status} {n : ℕ}
    {Q : Option String → World → Prop}
    (h : ∀ t₁ t₂ clock, Q none
      { w with chain := w.chain.update (mutate t₁ t₂ w.chain.status), clock }) :
    wp sequential (updateChainStatus mutate (n + 1)) Q w := by
  unfold updateChainStatus
  rw [wp_bind]
  apply wp_get
  show wp sequential (now >>= _) Q w
  rw [wp_bind]
  apply wp_now
  intro t₁
  rw [wp_bind]
  apply wp_now
  intro t₂
  rw [wp_bind]
  apply wp_statusUpdate
  exact h t₁ t₂ t₂

end Ops

/-! ### The capture round -/

/-- The rounds the capture loop can return. -/
inductive Captured (chain : Chain) : Round → Prop
  | start : Captured chain (Round.start chain)
  | add {round : Round} (h : Captured chain round) (hoff : hashingEnabled chain = false)
      (target : Target) (path : String) (t : ℤ) :
      Captured chain (round.add (newRecord chain round target path t))
  | addFailed {round : Round} (h : Captured chain round) (hon : hashingEnabled chain = true)
      (target : Target) (path : String) (t : ℤ) (e : String) :
      Captured chain (round.addFailed (newRecord chain round target path t) e)
  | addHashed {round : Round} (h : Captured chain round) (hon : hashingEnabled chain = true)
      (target : Target) (path : String) (t : ℤ) {hash : String} (hne : hash ≠ "") :
      Captured chain (round.addHashed (newRecord chain round target path t) hash)

variable {round : Round}

/-- Every captured container is on record. -/
theorem Captured.length_newRecords (h : Captured chain round) :
    round.captured = round.newRecords.length := by
  induction h with
  | start => rfl
  | add _ _ _ _ _ ih => simp [Round.add, ih]
  | addFailed _ _ _ _ _ _ ih => simp [Round.addFailed, Round.add, ih]
  | addHashed _ _ _ _ _ _ ih => simp [Round.addHashed, Round.add, ih]

variable {w : World}

/-- The step lemma of the loop. -/
theorem wp_captureContainer (hr : Captured chain round) (target : Target)
    {Q : Except String Round → World → Prop} (herr : ∀ e clock, Q (.error e) { w with clock })
    (hok : ∀ round' clock, Captured chain round' → Q (.ok round') { w with clock }) :
    wp sequential (captureContainer chain round target) Q w := by
  unfold captureContainer
  rw [wp_bind]
  apply wp_createCheckpoint
  intro r
  cases r with
  | error e => exact herr e w.clock
  | ok path =>
    show wp sequential (now >>= _) Q w
    rw [wp_bind]
    apply wp_now
    intro t
    by_cases hhash : hashingEnabled chain = true
    · simp only [hhash, if_true]
      rw [wp_bind]
      apply wp_computeChecksum
      · exact fun e => hok _ t (.addFailed hr hhash target path t e)
      · exact fun hash hne => hok _ t (.addHashed hr hhash target path t hne)
    · simp only [hhash, if_false, Bool.false_eq_true]
      exact hok _ t (.add hr (by simpa using hhash) target path t)

/-- The run lemma of the loop: whatever it returns is a round of this chain. -/
theorem wp_captureRound (hr : Captured chain round) (ts : List Target)
    {Q : Except String Round → World → Prop} (herr : ∀ e clock, Q (.error e) { w with clock })
    (hok : ∀ round' clock, Captured chain round' → Q (.ok round') { w with clock }) :
    wp sequential (captureRound chain ts round) Q w := by
  induction ts generalizing round w with
  | nil => exact hok round w.clock hr
  | cons target rest ih =>
    unfold captureRound
    rw [wp_bind]
    apply wp_captureContainer hr target
    · exact herr
    · intro round' clock hr'
      exact ih hr' (fun e clock' => herr e clock') (fun r clock' h => hok r clock' h)

/-! ### What one reconcile does -/

/-- The hash algorithm is empty or `sha256`. -/
def supported (chain : Chain) : Prop :=
  ¬ (chain.spec.hashAlgorithm ≠ "" ∧ chain.spec.hashAlgorithm ≠ "sha256")

/-- The exits of `Reconcile`: how the stored object and the number of successful pod listings
    change. -/
inductive Exit (w w' : World) : Prop
  | idle (hc : w'.chain = w.chain) (hl : w'.listings = w.listings)
  | pending (hp : w.chain.status.phase = .empty) (t₁ t₂ : ℤ)
      (hc : w'.chain = w.chain.store (w.chain.status.toPending t₁ t₂ w.chain.generation))
      (hl : w'.listings = w.listings)
  | running (hp : w.chain.status.phase = .pending) (t₁ : ℤ)
      (hc : w'.chain = w.chain.store (w.chain.status.toRunning t₁ w.chain.generation))
      (hl : w'.listings = w.listings)
  | unsupported (hp : w.chain.status.phase = .running) (hu : ¬ supported w.chain) (t₁ t₂ : ℤ)
      (hc : w'.chain = w.chain.update
        (w.chain.status.failUnsupported (unsupportedAlgorithm w.chain) t₁ t₂))
      (hl : w'.listings = w.listings)
  | maxDuration (hp : w.chain.status.phase = .running) (hs : supported w.chain)
      (hd : w.chain.spec.capture.maxDuration.isSome) (t₁ t₂ : ℤ)
      (hc : w'.chain = w.chain.update (w.chain.status.maxDurationReached t₁ t₂))
  | roundFailed (hp : w.chain.status.phase = .running) (hs : supported w.chain)
      (msg : String) (t₁ t₂ : ℤ)
      (hc : w'.chain = w.chain.update (w.chain.status.roundFailed msg (givesUp w.chain) t₁ t₂))
      (hl : w'.listings = w.listings + 1)
  | roundDone (hp : w.chain.status.phase = .running) (hs : supported w.chain)
      {round : Round} (hr : Captured w.chain round) (t : ℤ) {reason message : String}
      (hcomp : completion w.chain round.captured = some (reason, message)) (t₁ t₂ : ℤ)
      (hc : w'.chain = w.chain.update
        (w.chain.status.roundDone t round (hashingEnabled w.chain) reason message t₁ t₂))
      (hl : w'.listings = w.listings + 1)
  | roundContinue (hp : w.chain.status.phase = .running) (hs : supported w.chain)
      {round : Round} (hr : Captured w.chain round) (t : ℤ)
      (hcomp : completion w.chain round.captured = none) (t₁ t₂ : ℤ)
      (hc : w'.chain = w.chain.update
        (w.chain.status.roundContinue t round (hashingEnabled w.chain) t₁ t₂))
      (hl : w'.listings = w.listings + 1)

section Exits
variable {w : World} (hp : w.chain.status.phase = .running) (hs : supported w.chain)

include hp hs in
/-- The exits of a due capture round; the clock may have been read before. -/
theorem wp_capture (clock : ℤ) :
    wp sequential (capture w.chain) (fun _ w' => Exit w w') { w with clock } := by
  unfold capture
  rw [wp_bind]
  apply wp_getMatchingPods
  · exact fun e => .idle rfl rfl
  · intro pods
    dsimp only
    rw [wp_bind]
    apply wp_captureRound (.start)
    · -- a checkpoint failed
      intro e clock
      show wp sequential (finishFailed w.chain e) _ _
      unfold finishFailed
      rw [wp_bind]
      apply wp_updateChainStatus
      intro t₁ t₂ clock
      show wp sequential (if _ then _ else _) _ _
      split_ifs
      · exact .roundFailed hp hs e t₁ t₂ rfl rfl
      · exact .roundFailed hp hs e t₁ t₂ rfl rfl
    · intro round clock hr
      show wp sequential (finishRound w.chain pods round) _ _
      unfold finishRound
      rw [wp_bind]
      apply wp_now
      intro t
      cases hcomp : completion w.chain round.captured with
      | some rm =>
        obtain ⟨reason, message⟩ := rm
        dsimp only
        rw [wp_bind]
        apply wp_updateChainStatus
        intro t₁ t₂ clock
        dsimp only
        rw [wp_bind]
        apply wp_executePostSnapshotAction
        exact fun _ => .roundDone hp hs hr t hcomp t₁ t₂ rfl rfl
      | none =>
        dsimp only
        rw [wp_bind]
        apply wp_updateChainStatus
        exact fun t₁ t₂ clock => .roundContinue hp hs hr t hcomp t₁ t₂ rfl rfl

include hp hs in
/-- Completing a chain that ran out of time is an exit, whether or not pods were listed. -/
theorem wp_finishMaxDuration (hd : w.chain.spec.capture.maxDuration.isSome)
    (pods : List PodInfo) (listings : ℕ) (clock : ℤ) :
    wp sequential (finishMaxDuration w.chain pods) (fun _ w' => Exit w w')
      { w with clock, listings } := by
  unfold finishMaxDuration
  rw [wp_bind]
  apply wp_updateChainStatus
  intro t₁ t₂ clock
  dsimp only
  rw [wp_bind]
  apply wp_executePostSnapshotAction
  exact fun _ => .maxDuration hp hs hd t₁ t₂ rfl

include hp hs in
/-- The exits of the duration backstop. -/
theorem wp_stopAtMaxDuration (hd : w.chain.spec.capture.maxDuration.isSome) (clock : ℤ) :
    wp sequential (stopAtMaxDuration w.chain) (fun _ w' => Exit w w') { w with clock } := by
  unfold stopAtMaxDuration podsToDelete
  rw [wp_bind]
  split_ifs
  · apply wp_getMatchingPods
    · exact fun e => .idle rfl rfl
    · exact fun pods => wp_finishMaxDuration hp hs hd pods _ clock
  · exact wp_finishMaxDuration hp hs hd [] w.listings clock

include hp hs in
/-- A round that is not due waits, a due one captures, whatever the clock said. -/
theorem wp_captureWhenDue (clock : ℤ) :
    wp sequential (captureWhenDue w.chain) (fun _ w' => Exit w w') { w with clock } := by
  unfold captureWhenDue waitForInterval
  rw [wp_bind]
  cases w.chain.status.lastSnapshotTime with
  | none => exact wp_capture hp hs clock
  | some last =>
    dsimp only
    rw [wp_bind]
    apply wp_now
    intro t
    split_ifs
    · exact .idle rfl rfl
    · exact wp_capture hp hs t

include hp in
/-- The exits of the `Running` phase. -/
theorem wp_reconcileRunning :
    wp sequential (reconcileRunning w.chain) (fun _ w' => Exit w w') w := by
  unfold reconcileRunning
  split_ifs with hu
  · rw [wp_bind]
    apply wp_updateChainStatus
    exact fun t₁ t₂ clock => .unsupported hp (not_not.mpr hu) t₁ t₂ rfl rfl
  · rw [wp_bind]
    unfold maxDurationElapsed
    split
    · rename_i d startTime hd hstart
      rw [wp_bind]
      apply wp_now
      intro t
      show wp sequential (if decide _ = true then _ else _) _ _
      split_ifs
      · exact wp_stopAtMaxDuration hp hu (by rw [hd]; rfl) t
      · exact wp_captureWhenDue hp hu t
    · exact wp_captureWhenDue hp hu w.clock

end Exits

/-- A direct write goes through. -/
theorem wp_writeDirectly {st : Status} {Q : Outcome → World → Prop}
    (h : Q .done { w with chain := w.chain.store st }) :
    wp sequential (writeDirectly chain st) Q w := by
  unfold writeDirectly
  rw [wp_bind]
  apply wp_statusUpdate
  exact h

/-- **The inversion lemma.**  Every run of `Reconcile` in the sequential world is one of the
    exits. -/
theorem reconcile_exit {w' : World} {tr : List (Event sig)} {o : Outcome}
    (h : Runs act reconcile w tr o w') : Exit w w' := by
  have hwp : wp sequential reconcile (fun _ w' => Exit w w') w := by
    unfold reconcile
    rw [wp_bind]
    apply wp_get
    show wp sequential (reconcilePhase w.chain) _ w
    unfold reconcilePhase
    cases hp : w.chain.status.phase with
    | completed => exact .idle rfl rfl
    | failed => exact .idle rfl rfl
    | other s => exact .idle rfl rfl
    | running => exact wp_reconcileRunning hp
    | empty =>
      dsimp only
      rw [wp_bind]
      apply wp_now
      intro t₁
      rw [wp_bind]
      apply wp_now
      intro t₂
      apply wp_writeDirectly
      exact .pending hp t₁ t₂ rfl rfl
    | pending =>
      dsimp only
      rw [wp_bind]
      apply wp_now
      intro t₁
      apply wp_writeDirectly
      exact .running hp t₁ rfl rfl
  exact wp_runs (C := sequential) (Q := fun _ w' => Exit w w') hwp h

/-! ### Runs of reconciles -/

/-- Reconciles one after the other, each started in a state that meets `ok`. -/
inductive SeqRun (ok : World → Prop) (w₀ : World) : World → Prop
  | refl : SeqRun ok w₀ w₀
  | step {w w' : World} {tr : List (Event sig)} {o : Outcome} (h : SeqRun ok w₀ w) (hok : ok w)
      (hr : Runs act reconcile w tr o w') : SeqRun ok w₀ w'

variable {ok : World → Prop} {w₀ : World}

/-- The run lemma: what holds at the start and is kept by every exit holds throughout. -/
theorem SeqRun.invariant {I : World → Prop} (h : SeqRun ok w₀ w) (h0 : I w₀)
    (hstep : ∀ w w', I w → ok w → Exit w w' → I w') : I w := by
  induction h with
  | refl => exact h0
  | step _ hok hr ih => exact hstep _ _ ih hok (reconcile_exit hr)

/-- Runs compose. -/
theorem SeqRun.trans {w₁ w₂ : World} (h₁ : SeqRun ok w₀ w₁) (h₂ : SeqRun ok w₁ w₂) :
    SeqRun ok w₀ w₂ := by
  induction h₂ with
  | refl => exact h₁
  | step _ hok hr ih => exact .step ih hok hr

/-! ### A cluster that answers -/

/-- The chain of an application, just created. -/
def evidenceChain (capture : CaptureSpec) (hashAlgorithm : String) (action : PostSnapshotAction) :
    Chain where
  name := "evidence"
  generation := 1
  resourceVersion := 1
  spec := ⟨"prod", "app=web", [], capture, hashAlgorithm, action⟩
  status := Status.zero

/-- A cluster with fixed answers: how far the clock moves at each reading, the pods listed,
    the checkpoint of a container and the helper's log for a path. -/
structure Cluster where
  tick : ℕ
  pods : List PodInfo
  checkpoint : String → Except String String
  logs : String → Except String Logs

/-- The sequential world with that cluster. -/
def Cluster.answer (c : Cluster) : (op : sig.Op) → World → sig.Reply op × World
  | .get, w => (.found w.chain, w)
  | .statusUpdate chain, w => (.ok, { w with chain := w.chain.store chain.status })
  | .now, w => let t : ℤ := w.clock + c.tick; (t, { w with clock := t })
  | .listPods _ _, w => (.ok c.pods, { w with listings := w.listings + 1 })
  | .createCheckpoint _ _ container _, w => (c.checkpoint container, w)
  | .helperLogs _ _ path, w => (c.logs path, w)
  | .deletePod _, w => (.ok, w)

theorem Cluster.answer_act (c : Cluster) (op : sig.Op) (w : World) :
    act op w (c.answer op w).1 (c.answer op w).2 := by
  cases op with
  | get => exact ⟨rfl, rfl⟩
  | statusUpdate chain => exact ⟨rfl, rfl⟩
  | now =>
    refine ⟨?_, rfl⟩
    show w.clock ≤ w.clock + c.tick
    omega
  | _ => rfl

/-- The world after one reconcile in that cluster. -/
def Cluster.reconcile (c : Cluster) (w : World) : World := (exec c.answer Forensic.reconcile w).2

/-- Reconciling in a cluster that answers is a step of a run. -/
theorem SeqRun.cluster (h : SeqRun ok w₀ w) (hok : ok w) (c : Cluster) :
    SeqRun ok w₀ (c.reconcile w) :=
  .step h hok (Runs.of_exec c.answer_act Forensic.reconcile w)

end CheckpointRestore.Forensic
