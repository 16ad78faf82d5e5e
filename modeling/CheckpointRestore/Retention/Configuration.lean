import CheckpointRestore.Retention.Policy

namespace CheckpointRestore.Retention

open Resource

/-!
# Configuration — from the specs of the custom resource to a policy snapshot

The operator keeps its policies in package variables.  `applyPolicySpec` resets them, overwrites
them with what the spec sets and takes a snapshot, all under one lock, so a history of specs is
a sequence of such calls.

* `Variables`, `Variables.initial` — the package variables and their initial values;
* `applyPolicySpec` — one spec: what it leaves in the variables, the snapshot and whether the
  garbage collector restarts;
* `applyPolicySpec_vars` — nothing but the checkpoint directory depends on the variables before;
* `latestDirectory` — the directory in force after a history of specs;
* `snapshot_eq_iff` — when two histories that end in the same spec leave the same policy.
-/

/-! ### The custom resource -/

/-- `GlobalPolicySpec`; a nil pointer is `none`. -/
structure GlobalPolicySpec where
  retainOrphan : Option Bool
  maxCheckpointsPerNamespaces : Option ℤ
  maxCheckpointsPerPod : Option ℤ
  maxCheckpointsPerContainer : Option ℤ
  maxCheckpointSize : Option Quantity
  maxTotalSizePerNamespace : Option Quantity
  maxTotalSizePerPod : Option Quantity
  maxTotalSizePerContainer : Option Quantity

/-- What `applyPolicySpec` reads of a `CheckpointRestoreOperatorSpec`. -/
structure CheckpointRestoreOperatorSpec where
  checkpointDirectory : String
  globalPolicies : GlobalPolicySpec
  containerPolicies : List ContainerPolicySpec
  podPolicies : List PodPolicySpec
  namespacePolicies : List NamespacePolicySpec

/-! ### The package variables -/

/-- The package variables that `policyMutex` guards. -/
structure Variables where
  checkpointDirectory : String
  maxCheckpointsPerContainer : ℤ
  maxCheckpointsPerPod : ℤ
  maxCheckpointsPerNamespace : ℤ
  retainOrphan : Option Bool
  maxCheckpointSize : Quantity
  maxTotalSizePerPod : Quantity
  maxTotalSizePerContainer : Quantity
  maxTotalSizePerNamespace : Quantity
  containerPolicies : List ContainerPolicySpec
  podPolicies : List PodPolicySpec
  namespacePolicies : List NamespacePolicySpec

/-- Where the kubelet keeps checkpoints unless it is told otherwise. -/
def defaultDirectory : String := "/var/lib/kubelet/checkpoints"

/-- `resource.MustParse("100Gi")`. -/
def hundredGibi : Quantity := .int64 (100 * 2 ^ 30) 0

/-- The variables when the process starts. -/
def Variables.initial : Variables where
  checkpointDirectory := defaultDirectory
  maxCheckpointsPerContainer := 10
  maxCheckpointsPerPod := 20
  maxCheckpointsPerNamespace := 30
  retainOrphan := none
  maxCheckpointSize := hundredGibi
  maxTotalSizePerPod := hundredGibi
  maxTotalSizePerContainer := hundredGibi
  maxTotalSizePerNamespace := hundredGibi
  containerPolicies := []
  podPolicies := []
  namespacePolicies := []

/-! ### One spec -/

/-- `resetAllPoliciesToDefaultLocked`. -/
def resetAllPoliciesToDefaultLocked (vars : Variables) : Variables :=
  { vars with
    retainOrphan := none
    maxCheckpointsPerContainer := 10
    maxCheckpointsPerPod := 20
    maxCheckpointsPerNamespace := 30
    maxCheckpointSize := oneExbi
    maxTotalSizePerContainer := oneExbi
    maxTotalSizePerPod := oneExbi
    maxTotalSizePerNamespace := oneExbi
    containerPolicies := []
    podPolicies := []
    namespacePolicies := [] }

/-- A count is taken over where it is set and not negative. -/
def setCount (limit : Option ℤ) (current : ℤ) : ℤ :=
  match limit with
  | some count => if 0 ≤ count then count else current
  | none => current

/-- `handleGlobalPoliciesLocked`. -/
def handleGlobalPoliciesLocked (globalPolicies : GlobalPolicySpec) (vars : Variables) :
    Variables :=
  { vars with
    retainOrphan :=
      match globalPolicies.retainOrphan with
      | none => some true
      | some retain => some retain
    maxCheckpointsPerContainer :=
      setCount globalPolicies.maxCheckpointsPerContainer vars.maxCheckpointsPerContainer
    maxCheckpointsPerPod := setCount globalPolicies.maxCheckpointsPerPod vars.maxCheckpointsPerPod
    maxCheckpointsPerNamespace :=
      setCount globalPolicies.maxCheckpointsPerNamespaces vars.maxCheckpointsPerNamespace
    maxCheckpointSize := globalPolicies.maxCheckpointSize.getD vars.maxCheckpointSize
    maxTotalSizePerNamespace :=
      globalPolicies.maxTotalSizePerNamespace.getD vars.maxTotalSizePerNamespace
    maxTotalSizePerPod := globalPolicies.maxTotalSizePerPod.getD vars.maxTotalSizePerPod
    maxTotalSizePerContainer :=
      globalPolicies.maxTotalSizePerContainer.getD vars.maxTotalSizePerContainer }

/-- `handleSpecificPoliciesLocked`. -/
def handleSpecificPoliciesLocked (spec : CheckpointRestoreOperatorSpec) (vars : Variables) :
    Variables :=
  -- all three are cleared first and then set where the spec has any
  { vars with
    containerPolicies := if 0 < spec.containerPolicies.length then spec.containerPolicies else []
    podPolicies := if 0 < spec.podPolicies.length then spec.podPolicies else []
    namespacePolicies :=
      if 0 < spec.namespacePolicies.length then spec.namespacePolicies else [] }

/-- `currentPolicySnapshotLocked`; copies of slices and pointers are the values themselves. -/
def currentPolicySnapshotLocked (vars : Variables) : PolicySnapshot where
  checkpointDirectory := vars.checkpointDirectory
  retainOrphan := vars.retainOrphan.getD true
  maxCheckpointsPerContainer := vars.maxCheckpointsPerContainer
  maxCheckpointsPerPod := vars.maxCheckpointsPerPod
  maxCheckpointsPerNamespace := vars.maxCheckpointsPerNamespace
  maxCheckpointSize := vars.maxCheckpointSize
  maxTotalSizePerPod := vars.maxTotalSizePerPod
  maxTotalSizePerContainer := vars.maxTotalSizePerContainer
  maxTotalSizePerNamespace := vars.maxTotalSizePerNamespace
  containerPolicies := vars.containerPolicies
  podPolicies := vars.podPolicies
  namespacePolicies := vars.namespacePolicies

/-- What `applyPolicySpec` leaves and returns. -/
structure Applied where
  vars : Variables
  policies : PolicySnapshot
  restartGarbageCollector : Bool

/-- `applyPolicySpec`. -/
def applyPolicySpec (spec : CheckpointRestoreOperatorSpec) (vars : Variables) : Applied :=
  let handled := handleSpecificPoliciesLocked spec
    (handleGlobalPoliciesLocked spec.globalPolicies (resetAllPoliciesToDefaultLocked vars))
  if spec.checkpointDirectory != "" && spec.checkpointDirectory != handled.checkpointDirectory then
    let moved := { handled with checkpointDirectory := spec.checkpointDirectory }
    ⟨moved, currentPolicySnapshotLocked moved, true⟩
  else
    ⟨handled, currentPolicySnapshotLocked handled, false⟩

/-- The variables after a history of specs. -/
def applySpecs (specs : List CheckpointRestoreOperatorSpec) (vars : Variables) : Variables :=
  specs.foldl (fun vars spec => (applyPolicySpec spec vars).vars) vars

/-! ### What one spec carries over -/

/-- The directory in force once a spec is applied: the one it sets, or the one before. -/
def nextDirectory (spec : CheckpointRestoreOperatorSpec) (current : String) : String :=
  if spec.checkpointDirectory = "" then current else spec.checkpointDirectory

theorem applyPolicySpec_policies (spec : CheckpointRestoreOperatorSpec) (vars : Variables) :
    (applyPolicySpec spec vars).policies
      = currentPolicySnapshotLocked (applyPolicySpec spec vars).vars := by
  unfold applyPolicySpec
  dsimp only
  split <;> rfl

/-- **One spec.** Every variable but the directory is what the spec makes of the defaults,
    whatever it was before. -/
theorem applyPolicySpec_vars (spec : CheckpointRestoreOperatorSpec) (vars : Variables) :
    (applyPolicySpec spec vars).vars
      = { (applyPolicySpec spec .initial).vars with
          checkpointDirectory := nextDirectory spec vars.checkpointDirectory } := by
  have hcommon : ∀ vars : Variables, (applyPolicySpec spec vars).vars
      = { handleSpecificPoliciesLocked spec (handleGlobalPoliciesLocked spec.globalPolicies
            (resetAllPoliciesToDefaultLocked vars)) with
          checkpointDirectory := nextDirectory spec vars.checkpointDirectory } := by
    intro vars
    have hkept : (handleSpecificPoliciesLocked spec (handleGlobalPoliciesLocked
        spec.globalPolicies (resetAllPoliciesToDefaultLocked vars))).checkpointDirectory
          = vars.checkpointDirectory := rfl
    unfold applyPolicySpec nextDirectory
    dsimp only
    rw [hkept]
    -- a directory that is set but not new is left in place
    by_cases hempty : spec.checkpointDirectory = ""
    · simp only [hempty, bne_self_eq_false, Bool.false_and, Bool.false_eq_true, if_false, if_true]
      rfl
    · by_cases hsame : spec.checkpointDirectory = vars.checkpointDirectory
      · simp only [hsame, bne_self_eq_false, Bool.and_false, Bool.false_eq_true, if_false, ite_self]
        rfl
      · have hmoves : (spec.checkpointDirectory != "" &&
            spec.checkpointDirectory != vars.checkpointDirectory) = true := by
          simp [hempty, hsame]
        rw [if_pos hmoves, if_neg hempty]
  rw [hcommon vars, hcommon .initial]
  rfl

/-! ### Histories -/

/-- The directory that was set last in a history, or the default. -/
def latestDirectory (specs : List CheckpointRestoreOperatorSpec) : String :=
  match specs.reverse.find? (fun spec => spec.checkpointDirectory != "") with
  | some spec => spec.checkpointDirectory
  | none => defaultDirectory

theorem latestDirectory_concat (specs : List CheckpointRestoreOperatorSpec)
    (last : CheckpointRestoreOperatorSpec) :
    latestDirectory (specs ++ [last]) = nextDirectory last (latestDirectory specs) := by
  unfold latestDirectory nextDirectory
  rw [List.reverse_append, List.reverse_singleton, List.singleton_append, List.find?_cons]
  by_cases hempty : last.checkpointDirectory = ""
  · simp [hempty]
  · have hset : (last.checkpointDirectory != "") = true := bne_iff_ne.mpr hempty
    rw [hset, if_neg hempty]

theorem applySpecs_concat (specs : List CheckpointRestoreOperatorSpec)
    (last : CheckpointRestoreOperatorSpec) (vars : Variables) :
    applySpecs (specs ++ [last]) vars = (applyPolicySpec last (applySpecs specs vars)).vars := by
  unfold applySpecs
  rw [List.foldl_append, List.foldl_cons, List.foldl_nil]

/-- After any history the directory is the one that was set last. -/
theorem applySpecs_directory (specs : List CheckpointRestoreOperatorSpec) :
    (applySpecs specs .initial).checkpointDirectory = latestDirectory specs := by
  induction specs using List.reverseRecOn with
  | nil => rfl
  | append_singleton specs last ih =>
    rw [applySpecs_concat, latestDirectory_concat, applyPolicySpec_vars, ← ih]

/-- The snapshot taken when the last spec of a history is applied. -/
def snapshotAfter (specs : List CheckpointRestoreOperatorSpec)
    (last : CheckpointRestoreOperatorSpec) : PolicySnapshot :=
  (applyPolicySpec last (applySpecs specs .initial)).policies

theorem snapshotAfter_eq (specs : List CheckpointRestoreOperatorSpec)
    (last : CheckpointRestoreOperatorSpec) :
    snapshotAfter specs last
      = { (applyPolicySpec last .initial).policies with
          checkpointDirectory := nextDirectory last (latestDirectory specs) } := by
  unfold snapshotAfter
  rw [applyPolicySpec_policies, applyPolicySpec_vars, applySpecs_directory,
    applyPolicySpec_policies]
  rfl

/-- **Two histories that end in the same spec leave the same policy** exactly when that spec
    sets a checkpoint directory or both set the same one last before it. -/
theorem snapshot_eq_iff (specs specs' : List CheckpointRestoreOperatorSpec)
    (last : CheckpointRestoreOperatorSpec) :
    snapshotAfter specs last = snapshotAfter specs' last ↔
      last.checkpointDirectory ≠ "" ∨ latestDirectory specs = latestDirectory specs' := by
  rw [snapshotAfter_eq, snapshotAfter_eq]
  have hfield : ∀ policies : PolicySnapshot, ∀ dir dir' : String,
      ({ policies with checkpointDirectory := dir } : PolicySnapshot)
        = { policies with checkpointDirectory := dir' } ↔ dir = dir' := by
    intro policies dir dir'
    refine ⟨fun h => congrArg PolicySnapshot.checkpointDirectory h, fun h => ?_⟩
    rw [h]
  rw [hfield]
  unfold nextDirectory
  by_cases hempty : last.checkpointDirectory = "" <;> simp [hempty]

/-- A spec that sets nothing but the directory. -/
def directorySpec (dir : String) : CheckpointRestoreOperatorSpec where
  checkpointDirectory := dir
  globalPolicies := ⟨none, none, none, none, none, none, none, none⟩
  containerPolicies := []
  podPolicies := []
  namespacePolicies := []

/-- A directory that is taken out of the spec stays in force. -/
theorem directory_survives :
    (snapshotAfter [directorySpec "/data"] (directorySpec "")).checkpointDirectory = "/data" ∧
    (snapshotAfter [] (directorySpec "")).checkpointDirectory = "/var/lib/kubelet/checkpoints" := by
  decide

end CheckpointRestore.Retention
