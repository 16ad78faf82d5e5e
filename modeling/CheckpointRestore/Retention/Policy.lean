import CheckpointRestore.Lib.Match
import CheckpointRestore.Lib.Quantity
import CheckpointRestore.Archive

namespace CheckpointRestore.Retention

open Go Resource

/-!
# Retention policies — snapshots, levels and patterns

What the garbage collector is configured with, and which archives a level looks at.

* `PolicySnapshot` — the configuration one pass works with;
* `visits` — the levels `applyPolicies` handles for an archive, each with its `Policy`;
* `levelPattern` — the pattern of a level's file names;
* `excluded` — archives a level leaves to a more specific policy.
-/

/-! ### Configuration -/

/-- `checkpointDetails`: the identity recorded in an archive. -/
abbrev CheckpointDetails := PodContainerRef

/-- The levels of `handleCheckpointsForLevel`. -/
inductive Level where
  | container
  | pod
  | namespace
  deriving DecidableEq

/-- The limits every kind of policy carries; a nil pointer is `none`. -/
structure Limits where
  retainOrphan : Option Bool
  maxCheckpoints : Option ℤ
  maxCheckpointSize : Option Quantity
  maxTotalSize : Option Quantity
  deriving DecidableEq

/-- `ContainerPolicySpec`. -/
structure ContainerPolicySpec extends Limits where
  ns : String
  pod : String
  container : String
  deriving DecidableEq

/-- `PodPolicySpec`. -/
structure PodPolicySpec extends Limits where
  ns : String
  pod : String
  deriving DecidableEq

/-- `NamespacePolicySpec`. -/
structure NamespacePolicySpec extends Limits where
  ns : String
  deriving DecidableEq

/-- `policySnapshot`. -/
structure PolicySnapshot where
  checkpointDirectory : String
  retainOrphan : Bool
  maxCheckpointsPerContainer : ℤ
  maxCheckpointsPerPod : ℤ
  maxCheckpointsPerNamespace : ℤ
  maxCheckpointSize : Quantity
  maxTotalSizePerPod : Quantity
  maxTotalSizePerContainer : Quantity
  maxTotalSizePerNamespace : Quantity
  containerPolicies : List ContainerPolicySpec
  podPolicies : List PodPolicySpec
  namespacePolicies : List NamespacePolicySpec

/-- `Policy`. -/
structure Policy where
  retainOrphan : Bool
  maxCheckpoints : ℤ
  maxCheckpointSize : Quantity
  maxTotalSize : Quantity
  deriving DecidableEq

/-! ### Which policy applies -/

/-- `toInfinityCount`: `math.MaxInt32` where no limit is set. -/
def toInfinityCount (value : Option ℤ) : ℤ := value.getD (2 ^ 31 - 1)

/-- `resource.MustParse("1Ei")`. -/
def oneExbi : Quantity := .dec (2 ^ 60 * 10 ^ 9) 9

/-- `toInfinitySize`. -/
def toInfinitySize (value : Option Quantity) : Quantity := value.getD oneExbi

/-- `ifNil`. -/
def ifNil (value : Option Bool) : Bool := value.getD true

/-- The `Policy` of a specific policy. -/
def Limits.toPolicy (limits : Limits) : Policy where
  retainOrphan := ifNil limits.retainOrphan
  maxCheckpoints := toInfinityCount limits.maxCheckpoints
  maxCheckpointSize := toInfinitySize limits.maxCheckpointSize
  maxTotalSize := toInfinitySize limits.maxTotalSize

namespace PolicySnapshot

/-- `findContainerPolicy`. -/
def findContainerPolicy (policies : PolicySnapshot) (details : CheckpointDetails) :
    Option ContainerPolicySpec :=
  policies.containerPolicies.find? (fun policy => policy.ns == details.ns &&
    policy.pod == details.pod && policy.container == details.container)

/-- `findPodPolicy`. -/
def findPodPolicy (policies : PolicySnapshot) (details : CheckpointDetails) :
    Option PodPolicySpec :=
  policies.podPolicies.find? (fun policy => policy.ns == details.ns && policy.pod == details.pod)

/-- `findNamespacePolicy`. -/
def findNamespacePolicy (policies : PolicySnapshot) (details : CheckpointDetails) :
    Option NamespacePolicySpec :=
  policies.namespacePolicies.find? (fun policy => policy.ns == details.ns)

/-- The global policy at each level. -/
def globalPolicies (policies : PolicySnapshot) : List (Level × Policy) :=
  [(.container, { retainOrphan := policies.retainOrphan
                  maxCheckpoints := policies.maxCheckpointsPerContainer
                  maxCheckpointSize := policies.maxCheckpointSize
                  maxTotalSize := policies.maxTotalSizePerContainer }),
   (.pod, { retainOrphan := policies.retainOrphan
            maxCheckpoints := policies.maxCheckpointsPerPod
            maxCheckpointSize := policies.maxCheckpointSize
            maxTotalSize := policies.maxTotalSizePerPod }),
   (.namespace, { retainOrphan := policies.retainOrphan
                  maxCheckpoints := policies.maxCheckpointsPerNamespace
                  maxCheckpointSize := policies.maxCheckpointSize
                  maxTotalSize := policies.maxTotalSizePerNamespace })]

/-- The levels `applyPolicies` handles, in order: that of the most specific policy, or all
    three with the global one. -/
def visits (policies : PolicySnapshot) (details : CheckpointDetails) : List (Level × Policy) :=
  match policies.findContainerPolicy details with
  | some policy => [(.container, policy.toPolicy)]
  | none =>
    match policies.findPodPolicy details with
    | some policy => [(.pod, policy.toPolicy)]
    | none =>
      match policies.findNamespacePolicy details with
      | some policy => [(.namespace, policy.toPolicy)]
      | none => policies.globalPolicies

/-- A more specific policy than those of the level governs the archive. -/
def excluded (policies : PolicySnapshot) (level : Level) (details : CheckpointDetails) : Bool :=
  match level with
  | .container => false
  | .pod => (policies.findContainerPolicy details).isSome
  | .namespace =>
    (policies.findContainerPolicy details).isSome || (policies.findPodPolicy details).isSome

end PolicySnapshot

/-! ### Patterns -/

/-- The file-name pattern of a level. -/
def levelFilePattern (details : CheckpointDetails) : Level → String
  | .container => "checkpoint-" ++ details.pod ++ "_" ++ details.ns ++ "-" ++ details.container ++
      "-[0-9][0-9][0-9][0-9]-[0-2][0-9]-[0-3][0-9]T[0-2][0-9]:[0-5][0-9]:[0-6][0-9]*.tar"
  | .pod => "checkpoint-" ++ details.pod ++ "_" ++ details.ns ++ "-*-*.tar"
  | .namespace => "checkpoint-*_" ++ details.ns ++ "-*-*.tar"

/-- `globPattern` of `handleCheckpointsForLevel`. -/
def levelPattern (policies : PolicySnapshot) (details : CheckpointDetails) (level : Level) :
    String :=
  Filepath.join policies.checkpointDirectory (levelFilePattern details level)

/-- The pattern of `applyPoliciesImmediately`. -/
def allPattern (policies : PolicySnapshot) : String :=
  Filepath.join policies.checkpointDirectory "checkpoint-*_*-*-*.tar"

/-- Every level's pattern ends in `.tar`, whatever the directory and the names are. -/
theorem tar_suffix_levelPattern (policies : PolicySnapshot) (details : CheckpointDetails)
    (level : Level) : ".tar".toList <:+ (levelPattern policies details level).toList := by
  have happend : ∀ (t : List Char) (a b : String), t <:+ b.toList → t <:+ (a ++ b).toList := by
    intro t a b h
    rw [String.toList_append]
    exact h.trans (List.suffix_append _ _)
  have hfile : ".tar".toList <:+ (levelFilePattern details level).toList := by
    cases level <;> exact happend _ _ _ (by decide)
  exact Filepath.suffix_join (e := "tar".toList) (by decide) (by decide) hfile

/-- What a level's pattern matches ends in `.tar`. -/
theorem tar_suffix_of_globMatch {policies : PolicySnapshot} {details : CheckpointDetails}
    {level : Level} {path : String}
    (h : Filepath.globMatch (levelPattern policies details level) path = true) :
    ".tar".toList <:+ path.toList :=
  Filepath.suffix_of_globMatch (by simp [Filepath.Plain]) (by decide)
    (tar_suffix_levelPattern policies details level) h

end CheckpointRestore.Retention
