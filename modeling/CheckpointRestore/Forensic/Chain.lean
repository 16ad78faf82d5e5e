import CheckpointRestore.Lib.Ints
import CheckpointRestore.Lib.Strings

namespace CheckpointRestore.Forensic

open Go

/-!
# Forensic snapshot chains — the object and its status updates

The `ForensicSnapshotChain` object, and every change the controller makes to its status, each
as a function of the clock readings it uses: the closures that `Reconcile` hands to
`updateChainStatus`, and the two phase changes it writes directly.

Times are nanoseconds.  What the API server stores is truncated to whole seconds
(`Status.stored`), as `metav1.Time` is serialised.
-/

/-! ### The object -/

/-- `SnapshotChainPhase`. -/
inductive Phase where
  | empty
  | pending
  | running
  | completed
  | failed
  | other (s : String)
  deriving DecidableEq

/-- `Completed` and `Failed`. -/
def Phase.terminal : Phase → Bool
  | .completed => true
  | .failed => true
  | _ => false

/-- `PostSnapshotAction`. -/
inductive PostSnapshotAction where
  | unset
  | none
  | deletePod
  deriving DecidableEq

/-- `CaptureSpec`. -/
structure CaptureSpec where
  interval : Option ℤ
  maxSnapshots : Option ℤ
  maxDuration : Option ℤ
  deriving DecidableEq

/-- `ForensicSnapshotChainSpec`; the label selector is kept in its serialised form. -/
structure Spec where
  ns : String
  selector : String
  containerNames : List String
  capture : CaptureSpec
  hashAlgorithm : String
  postSnapshotAction : PostSnapshotAction
  deriving DecidableEq

/-- `SnapshotChainRecord`. -/
structure Record where
  index : ℤ
  podName : String
  containerName : String
  checkpointPath : String
  snapshotTime : ℤ
  sha256Hash : String
  previousSHA256Hash : String
  deriving DecidableEq

/-- `metav1.ConditionStatus`. -/
inductive ConditionStatus where
  | true
  | false
  | unknown
  deriving DecidableEq

/-- `metav1.Condition`. -/
structure Condition where
  type : String
  status : ConditionStatus
  reason : String
  message : String
  lastTransitionTime : ℤ
  observedGeneration : ℤ
  deriving DecidableEq

/-- `ForensicSnapshotChainStatus`. -/
structure Status where
  conditions : List Condition
  phase : Phase
  snapshotCount : ℤ
  attemptCount : ℤ
  failureCount : ℤ
  startTime : Option ℤ
  lastSnapshotTime : Option ℤ
  completionTime : Option ℤ
  errorMessage : String
  observedGeneration : ℤ
  records : List Record
  deriving DecidableEq

/-- The status of an object that was just created. -/
def Status.zero : Status where
  conditions := []
  phase := .empty
  snapshotCount := 0
  attemptCount := 0
  failureCount := 0
  startTime := none
  lastSnapshotTime := none
  completionTime := none
  errorMessage := ""
  observedGeneration := 0
  records := []

/-- `ForensicSnapshotChain`. -/
structure Chain where
  name : String
  generation : ℤ
  resourceVersion : ℕ
  spec : Spec
  status : Status
  deriving DecidableEq

/-! ### Storing -/

/-- One second. -/
def second : ℤ := 10 ^ 9

/-- A time as the API server stores it. -/
def truncate (t : ℤ) : ℤ := t / second * second

/-- A status as the API server stores it: every time in whole seconds. -/
def Status.stored (st : Status) : Status :=
  { st with
    conditions := st.conditions.map
      (fun c => { c with lastTransitionTime := truncate c.lastTransitionTime })
    startTime := st.startTime.map truncate
    lastSnapshotTime := st.lastSnapshotTime.map truncate
    completionTime := st.completionTime.map truncate
    records := st.records.map (fun r => { r with snapshotTime := truncate r.snapshotTime }) }

/-! ### Conditions -/

/-- `meta.SetStatusCondition`: append a condition of a new type, otherwise overwrite the
    fields that differ; the transition time moves with the status only. -/
def setStatusCondition (conditions : List Condition) (new : Condition) : List Condition :=
  match conditions.findIdx? (fun c => c.type == new.type) with
  | none => conditions ++ [new]
  | some i => conditions.modify i (fun c =>
      { c with
        status := new.status
        lastTransitionTime :=
          if c.status ≠ new.status then new.lastTransitionTime else c.lastTransitionTime
        reason := new.reason
        message := new.message
        observedGeneration := new.observedGeneration })

/-- Overwriting stops at the first condition of the type. -/
theorem setStatusCondition_cons (c : Condition) (conditions : List Condition)
    (new : Condition) :
    setStatusCondition (c :: conditions) new
      = if c.type = new.type then
          { c with
            status := new.status
            lastTransitionTime :=
              if c.status ≠ new.status then new.lastTransitionTime else c.lastTransitionTime
            reason := new.reason
            message := new.message
            observedGeneration := new.observedGeneration } :: conditions
        else c :: setStatusCondition conditions new := by
  unfold setStatusCondition
  rw [List.findIdx?_cons]
  by_cases h : c.type = new.type
  · simp [h]
  · rw [if_neg h, if_neg (by simpa using h)]
    cases conditions.findIdx? (fun c => c.type == new.type) with
    | none => rfl
    | some i => rfl

/-- What the first condition of a type says, apart from its time. -/
def said (conditions : List Condition) (type : String) :
    Option (ConditionStatus × String × String × ℤ) :=
  (conditions.find? (fun c => c.type == type)).map
    (fun c => (c.status, c.reason, c.message, c.observedGeneration))

theorem said_cons (c : Condition) (conditions : List Condition) (type : String) :
    said (c :: conditions) type
      = if c.type = type then some (c.status, c.reason, c.message, c.observedGeneration)
        else said conditions type := by
  unfold said
  rw [List.find?_cons]
  by_cases h : c.type = type
  · simp [h]
  · have hne : (c.type == type) = false := by simpa using h
    rw [if_neg h, hne]

/-- Setting a condition is seen at its own type only. -/
theorem said_setStatusCondition (conditions : List Condition) (new : Condition) (type : String) :
    said (setStatusCondition conditions new) type
      = if new.type = type then some (new.status, new.reason, new.message, new.observedGeneration)
        else said conditions type := by
  induction conditions with
  | nil => exact said_cons new [] type
  | cons c conditions ih =>
    rw [setStatusCondition_cons]
    by_cases hc : c.type = new.type
    · rw [if_pos hc, said_cons, said_cons, ← hc]
      split_ifs <;> rfl
    · rw [if_neg hc, said_cons, said_cons, ih]
      by_cases ht : c.type = type
      · rw [if_pos ht, if_pos ht, if_neg (fun hnew => hc (ht.trans hnew.symm))]
      · rw [if_neg ht, if_neg ht]

/-- Setting a condition changes nothing if and only if the list says it already. -/
theorem setStatusCondition_eq_self_iff (conditions : List Condition) (new : Condition) :
    setStatusCondition conditions new = conditions ↔
      said conditions new.type
        = some (new.status, new.reason, new.message, new.observedGeneration) := by
  constructor
  · intro h
    rw [← h, said_setStatusCondition, if_pos rfl]
  · intro h
    induction conditions with
    | nil => exact absurd h (by simp [said])
    | cons c conditions ih =>
      rw [setStatusCondition_cons]
      rw [said_cons] at h
      split_ifs at h ⊢ with htype hstatus
      · simp only [Option.some.injEq, Prod.mk.injEq] at h
        exact absurd h.1 hstatus
      · simp only [Option.some.injEq, Prod.mk.injEq] at h
        obtain ⟨hs, hr, hm, hg⟩ := h
        rw [← hs, ← hr, ← hm, ← hg]
      · rw [ih h]

/-- The status and the reason of the condition of a type, as `meta.FindStatusCondition` finds
    it. -/
def verdict (conditions : List Condition) (type : String) : Option (ConditionStatus × String) :=
  (conditions.find? (fun c => c.type == type)).map (fun c => (c.status, c.reason))

theorem verdict_eq_said (conditions : List Condition) (type : String) :
    verdict conditions type = (said conditions type).map (fun x => (x.1, x.2.1)) := by
  unfold verdict said
  rw [Option.map_map]
  rfl

/-- Setting a condition is seen at its own type only. -/
theorem verdict_setStatusCondition (conditions : List Condition) (new : Condition)
    (type : String) :
    verdict (setStatusCondition conditions new) type
      = if new.type = type then some (new.status, new.reason) else verdict conditions type := by
  rw [verdict_eq_said, verdict_eq_said, said_setStatusCondition]
  split_ifs <;> rfl

/-- Set the `Ready` condition. -/
def Status.setReady (st : Status) (status : ConditionStatus) (reason message : String) (now : ℤ) :
    Status :=
  let cond : Condition :=
    { type := "Ready", status, reason, message, lastTransitionTime := now, observedGeneration := 0 }
  { st with conditions := setStatusCondition st.conditions cond }

/-! ### The phase changes written directly -/

/-- The message of a running chain. -/
def runningMessage : String := "ForensicSnapshotChain is running, snapshot chain is in progress"

/-- No phase to `Pending`. -/
def Status.toPending (t₁ t₂ generation : ℤ) (st : Status) : Status :=
  { Status.setReady { st with phase := .pending } .false "Pending"
      "ForensicSnapshotChain is pending, waiting to start snapshot chain" t₁ with
    startTime := some t₂
    observedGeneration := generation }

/-- `Pending` to `Running`. -/
def Status.toRunning (t₁ generation : ℤ) (st : Status) : Status :=
  { Status.setReady { st with phase := .running } .false "Running" runningMessage t₁ with
    observedGeneration := generation }

/-! ### The closures of `updateChainStatus` -/

/-- The outcome of a capture round. -/
structure Round where
  captured : ℕ
  newRecords : List Record
  integrityFailed : Bool
  integrityMessage : String
  previousHash : String
  deriving DecidableEq

/-- `appendRoundRecords`. -/
def Status.appendRoundRecords (st : Status) (round : Round) (hashingEnabled : Bool) (now : ℤ) :
    Status :=
  if round.newRecords = [] then st
  else
    let st := { st with records := st.records ++ round.newRecords }
    let cond : Condition :=
      if round.integrityFailed then
        { type := "IntegrityVerified", status := .false, reason := "HashGenerationFailed",
          message := round.integrityMessage, lastTransitionTime := now, observedGeneration := 0 }
      else
        { type := "IntegrityVerified", status := .true, reason := "HashGenerationSucceeded",
          message := "all snapshots successfully hashed", lastTransitionTime := now,
          observedGeneration := 0 }
    if !hashingEnabled then st
    else { st with conditions := setStatusCondition st.conditions cond }

/-- The hash algorithm is not supported. -/
def Status.failUnsupported (msg : String) (t₁ t₂ : ℤ) (st : Status) : Status :=
  Status.setReady { st with phase := .failed, errorMessage := msg, completionTime := some t₁ }
    .false "Failed" msg t₂

/-- The maximum duration has passed. -/
def Status.maxDurationReached (t₁ t₂ : ℤ) (st : Status) : Status :=
  Status.setReady { st with completionTime := some t₁, phase := .completed }
    .true "MaxDurationReached" "Snapshot chain stopped as it reached the maximum duration" t₂

/-- A checkpoint of the round failed; after too many in a row the chain gives up. -/
def Status.roundFailed (msg : String) (giveUp : Bool) (t₁ t₂ : ℤ) (st : Status) : Status :=
  let st := { st with failureCount := wrap32 (st.failureCount + 1), errorMessage := msg }
  if giveUp then
    Status.setReady { st with phase := .failed, completionTime := some t₁ }
      .false "CheckpointFailed" msg t₂
  else Status.setReady st .false "CheckpointError" msg t₂

/-- What every round that did not fail counts. -/
def Status.countRound (now : ℤ) (captured : ℕ) (st : Status) : Status :=
  { st with
    lastSnapshotTime := some now
    attemptCount := wrap32 (st.attemptCount + 1)
    failureCount := 0
    snapshotCount := if captured > 0 then wrap32 (st.snapshotCount + 1) else st.snapshotCount }

/-- A round that completes the chain. -/
def Status.roundDone (now : ℤ) (round : Round) (hashingEnabled : Bool) (reason message : String)
    (t₁ t₂ : ℤ) (st : Status) : Status :=
  let st := st.countRound now round.captured
  let st := { st with
    errorMessage := if round.captured > 0 then "" else st.errorMessage
    completionTime := some now
    phase := .completed }
  (st.setReady .true reason message t₁).appendRoundRecords round hashingEnabled t₂

/-- A round after which the chain goes on. -/
def Status.roundContinue (now : ℤ) (round : Round) (hashingEnabled : Bool) (t₁ t₂ : ℤ)
    (st : Status) : Status :=
  let st := st.countRound now round.captured
  let st := if round.captured > 0 ∧ st.errorMessage ≠ "" then
      Status.setReady { st with errorMessage := "" } .false "Running" runningMessage t₁
    else st
  st.appendRoundRecords round hashingEnabled t₂

/-! ### What the updates touch -/

section Fields
variable (st : Status)

@[simp] theorem Status.stored_phase : st.stored.phase = st.phase := rfl

@[simp] theorem Status.stored_snapshotCount : st.stored.snapshotCount = st.snapshotCount := rfl

@[simp] theorem Status.stored_attemptCount : st.stored.attemptCount = st.attemptCount := rfl

@[simp] theorem Status.stored_failureCount : st.stored.failureCount = st.failureCount := rfl

@[simp] theorem Status.stored_verdict (type : String) :
    verdict st.stored.conditions type = verdict st.conditions type := by
  unfold verdict Status.stored
  rw [List.find?_map, Option.map_map]
  rfl

/-- The `Ready` condition says what was set. -/
theorem Status.verdict_setReady (status : ConditionStatus) (reason message : String) (now : ℤ) :
    verdict (st.setReady status reason message now).conditions "Ready" = some (status, reason) := by
  unfold Status.setReady
  rw [verdict_setStatusCondition, if_pos rfl]

/-- Setting `Ready` leaves the others alone. -/
theorem Status.verdict_setReady_of_ne {type : String} (h : "Ready" ≠ type)
    (status : ConditionStatus) (reason message : String) (now : ℤ) :
    verdict (st.setReady status reason message now).conditions type
      = verdict st.conditions type := by
  unfold Status.setReady
  rw [verdict_setStatusCondition, if_neg h]

/-- Appending the records of a round sets `IntegrityVerified` if there are any and hashing is
    enabled, and no other condition. -/
theorem Status.verdict_appendRoundRecords (round : Round) (hashingEnabled : Bool) (now : ℤ)
    (type : String) :
    verdict (st.appendRoundRecords round hashingEnabled now).conditions type
      = if round.newRecords ≠ [] ∧ hashingEnabled = true ∧ type = "IntegrityVerified" then
          some (if round.integrityFailed then (.false, "HashGenerationFailed")
            else (.true, "HashGenerationSucceeded"))
        else verdict st.conditions type := by
  unfold Status.appendRoundRecords
  by_cases hnone : round.newRecords = []
  · simp [hnone]
  cases hashingEnabled with
  | false => simp [hnone]
  | true =>
    simp only [hnone, if_false, Bool.not_true, Bool.false_eq_true]
    rw [verdict_setStatusCondition]
    by_cases htype : type = "IntegrityVerified"
    · cases round.integrityFailed <;> simp [hnone, htype]
    · cases round.integrityFailed <;> simp [htype, Ne.symm htype]

/-- Appending the records of a round leaves everything but records and conditions alone. -/
theorem Status.appendRoundRecords_eq (round : Round) (hashingEnabled : Bool) (now : ℤ) :
    ∃ conditions, st.appendRoundRecords round hashingEnabled now
      = { st with records := st.records ++ round.newRecords, conditions } := by
  unfold Status.appendRoundRecords
  by_cases h : round.newRecords = []
  · exact ⟨st.conditions, by simp [h]⟩
  · cases hashingEnabled with
    | true => exact ⟨_, by simp only [h, if_false, Bool.not_true, Bool.false_eq_true]; rfl⟩
    | false => exact ⟨st.conditions, by simp [h]⟩

/-- The conditions of a completing round. -/
theorem Status.verdict_roundDone (now : ℤ) (round : Round) (hashingEnabled : Bool)
    (reason message : String) (t₁ t₂ : ℤ) (type : String) :
    verdict (st.roundDone now round hashingEnabled reason message t₁ t₂).conditions type
      = if round.newRecords ≠ [] ∧ hashingEnabled = true ∧ type = "IntegrityVerified" then
          some (if round.integrityFailed then (.false, "HashGenerationFailed")
            else (.true, "HashGenerationSucceeded"))
        else if type = "Ready" then some (.true, reason) else verdict st.conditions type := by
  unfold Status.roundDone
  rw [Status.verdict_appendRoundRecords]
  by_cases htype : type = "Ready"
  · subst htype
    rw [Status.verdict_setReady, if_pos rfl]
  · rw [Status.verdict_setReady_of_ne _ (Ne.symm htype), if_neg htype]
    rfl

/-- The conditions of a round after which the chain goes on: `Ready` is left alone, or says that
    the chain is running. -/
theorem Status.verdict_roundContinue (now : ℤ) (round : Round) (hashingEnabled : Bool)
    (t₁ t₂ : ℤ) (type : String) :
    ∃ ready, verdict (st.roundContinue now round hashingEnabled t₁ t₂).conditions type
        = (if round.newRecords ≠ [] ∧ hashingEnabled = true ∧ type = "IntegrityVerified" then
            some (if round.integrityFailed then (.false, "HashGenerationFailed")
              else (.true, "HashGenerationSucceeded"))
          else ready) ∧
      (ready = verdict st.conditions type ∨
        type = "Ready" ∧ ready = some (ConditionStatus.false, "Running")) := by
  unfold Status.roundContinue
  dsimp only
  refine ⟨_, Status.verdict_appendRoundRecords _ _ _ _ _, ?_⟩
  split
  · by_cases htype : type = "Ready"
    · subst htype
      exact Or.inr ⟨rfl, Status.verdict_setReady _ _ _ _ _⟩
    · exact Or.inl (Status.verdict_setReady_of_ne _ (Ne.symm htype) _ _ _ _)
  · exact Or.inl rfl

/-- A completing round, up to conditions. -/
theorem Status.roundDone_eq (now : ℤ) (round : Round) (hashingEnabled : Bool)
    (reason message : String) (t₁ t₂ : ℤ) :
    ∃ conditions errorMessage, st.roundDone now round hashingEnabled reason message t₁ t₂
      = { st.countRound now round.captured with
          records := st.records ++ round.newRecords, conditions, errorMessage
          completionTime := some now, phase := .completed } := by
  obtain ⟨conditions, h⟩ := Status.appendRoundRecords_eq
    (Status.setReady
      { st.countRound now round.captured with
        errorMessage := if round.captured > 0 then "" else st.errorMessage
        completionTime := some now
        phase := .completed } .true reason message t₁) round hashingEnabled t₂
  exact ⟨conditions, _, h⟩

/-- A round after which the chain goes on, up to conditions. -/
theorem Status.roundContinue_eq (now : ℤ) (round : Round) (hashingEnabled : Bool) (t₁ t₂ : ℤ) :
    ∃ conditions errorMessage, st.roundContinue now round hashingEnabled t₁ t₂
      = { st.countRound now round.captured with
          records := st.records ++ round.newRecords, conditions, errorMessage } := by
  unfold Status.roundContinue
  dsimp only
  split
  · obtain ⟨conditions, h⟩ := Status.appendRoundRecords_eq
      (Status.setReady { st.countRound now round.captured with errorMessage := "" }
        .false "Running" runningMessage t₁) round hashingEnabled t₂
    exact ⟨conditions, _, h⟩
  · obtain ⟨conditions, h⟩ := Status.appendRoundRecords_eq
      (st.countRound now round.captured) round hashingEnabled t₂
    exact ⟨conditions, _, h⟩

/-- A failed round, up to conditions. -/
theorem Status.roundFailed_eq (msg : String) (giveUp : Bool) (t₁ t₂ : ℤ) :
    ∃ conditions completionTime, st.roundFailed msg giveUp t₁ t₂
      = { st with
          failureCount := wrap32 (st.failureCount + 1), errorMessage := msg, conditions,
          completionTime, phase := if giveUp then .failed else st.phase } := by
  cases giveUp with
  | true => exact ⟨_, some t₁, rfl⟩
  | false => exact ⟨_, st.completionTime, rfl⟩

end Fields

end CheckpointRestore.Forensic
