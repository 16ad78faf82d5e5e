import CheckpointRestore.Retention.Names
import CheckpointRestore.Retention.Outcome

namespace CheckpointRestore.Retention

open Go Interaction Pinning Resource

/-!
# The scope of a level

A level looks for its archives by their file names and reads the identity they record, but
compares that identity only with other policies, never with its own scope.  Names of
namespaces and containers may both contain `-`, so a pattern can match archives of others.

* `InScope` — the identity a level is meant for;
* `removals_inScope_iff` — a level stays in its scope, whatever the policy and the API server
  say, exactly if its pattern matches no archive of others that its filter lets through;
* `teamProd_removed` — a directory named by the kubelet in which it does not.
-/

/-! ### Scopes -/

/-- Every archive is named by the kubelet after the identity it records. -/
def KubeletNamed (host : Host) (dir : String) (s : FS) : Prop :=
  ∀ path ∈ s, IsArchive path → ∃ ref timestamp, recordedIdentity host s path = .ok ref ∧
    validIdentity ref = true ∧ IsTimestamp timestamp ∧
    path = Filepath.join dir (kubeletName ref timestamp)

/-- The identity is in the scope of the level. -/
def InScope (details ref : CheckpointDetails) : Level → Prop
  | .namespace => ref.ns = details.ns
  | .pod => ref.ns = details.ns ∧ ref.pod = details.pod
  | .container =>
    ref.ns = details.ns ∧ ref.pod = details.pod ∧ ref.container = details.container

/-- A policy under which nothing but the markers holds archives of absent resources. -/
def orphanPolicy : Policy where
  retainOrphan := false
  maxCheckpoints := 1
  maxCheckpointSize := .new 1
  maxTotalSize := .new 1

/-- An API server that knows no resource. -/
def noResources : Lookups where
  getPod _ _ := .notFound
  getNamespace _ := .notFound

theorem takenForOrphans_noResources (node : Node) (details : CheckpointDetails) (level : Level)
    (s : FS) : takenForOrphans node noResources details level orphanPolicy s = true := by
  cases level <;> rfl

/-- With that policy and no resources, the level removes all it is left with. -/
theorem mem_levelRemovals_orphanPolicy {node : Node} {policies : PolicySnapshot}
    {details : CheckpointDetails} {level : Level} {s : FS} {path : String} :
    path ∈ levelRemovals node noResources policies details level orphanPolicy s ↔
      path ∈ filtered node policies details level s ∧ keepPath path ∉ s := by
  have hactive : orphanPolicy.active = true := by decide
  rw [levelRemovals, if_pos hactive, takenForOrphans_noResources]
  show path ∈ List.filter _ _ ↔ _
  rw [List.mem_filter]
  simp [marked]

/-- What a level can remove, over all policies and all answers of the API server, is what its
    filter leaves it and no marker holds. -/
theorem removals_iff_filtered (node : Node) (policies : PolicySnapshot)
    (details : CheckpointDetails) (level : Level) (s : FS) (P : String → Prop) :
    (∀ lookups policy path, path ∈ s →
      path ∉ handleLevel node lookups policies details level policy s → P path) ↔
    ∀ path ∈ filtered node policies details level s, keepPath path ∉ s → P path := by
  constructor
  · intro h path hfiltered hkeep
    have hin : path ∈ s := ((mem_filtered node).mp hfiltered).2.1
    -- on the orphan path all that the level is left with goes
    have hout : path ∉ handleLevel node noResources policies details level orphanPolicy s :=
      fun hmem => (mem_handleLevel.mp hmem).2
        (mem_levelRemovals_orphanPolicy.mpr ⟨hfiltered, hkeep⟩)
    exact h noResources orphanPolicy path hin hout
  · intro h lookups policy path hin hout
    obtain ⟨hfiltered, hkeep⟩ := mem_filtered_of_removed hin hout
    exact h path hfiltered hkeep

/-- **The scope of a level.**  Under every policy and every answer of the API server a level
    removes archives of its own scope only, if and only if its pattern matches no archive
    without a marker that records another scope and passes the filter. -/
theorem removals_inScope_iff (node : Node) (policies : PolicySnapshot)
    (details : CheckpointDetails) (level : Level) (s : FS) :
    (∀ lookups policy path, path ∈ s →
      path ∉ handleLevel node lookups policies details level policy s →
      ∃ ref, recordedIdentity node.host s path = .ok ref ∧ InScope details ref level) ↔
    (Filepath.globValid (levelPattern policies details level) = true →
      ∀ path ∈ s, Filepath.globMatch (levelPattern policies details level) path = true →
      keepPath path ∉ s → ∀ ref, recordedIdentity node.host s path = .ok ref →
      policies.excluded level ref = false → InScope details ref level) := by
  rw [removals_iff_filtered]
  constructor
  · intro h hvalid path hin hmatch hkeep ref href hex
    have hpasses : passesFilter node policies level s path = true :=
      (passesFilter_iff node).mpr ⟨ref, href, hex⟩
    have hfiltered : path ∈ filtered node policies details level s :=
      (mem_filtered node).mpr ⟨hvalid, hin, hmatch, hpasses⟩
    obtain ⟨ref', href', hscope⟩ := h path hfiltered hkeep
    obtain rfl : ref = ref' := Except.ok.inj (href.symm.trans href')
    exact hscope
  · intro h path hfiltered hkeep
    obtain ⟨hvalid, hin, hmatch, hpasses⟩ := (mem_filtered node).mp hfiltered
    obtain ⟨ref, href, hex⟩ := (passesFilter_iff node).mp hpasses
    exact ⟨ref, href, h hvalid path hin hmatch hkeep ref href hex⟩

/-! ### A namespace whose name extends another -/

/-- A pod of the namespace `team-prod`. -/
def teamProd : CheckpointDetails := ⟨"team-prod", "web", "app"⟩

/-- A pod of the same name in the namespace `team`. -/
def team : CheckpointDetails := ⟨"team", "web", "app"⟩

/-- The checkpoint of the first one. -/
def teamProdArchive : String := "/ckpt/checkpoint-web_team-prod-app-2026-01-01T00:00:00Z.tar"

/-- The directory with that checkpoint. -/
def teamProdFiles : FS :=
  FS.put ∅ teamProdArchive (.tar 10240 (containerdArchive teamProd "")) 0

/-- The pod of `team` is gone, and the checkpoint of `team-prod` is removed for it. -/
theorem teamProd_removed :
    KubeletNamed plainHost "/ckpt" teamProdFiles ∧ validIdentity team = true ∧
    teamProdArchive ∈ teamProdFiles ∧
    teamProdArchive ∉ handleLevel stableNode noResources dropOrphans team .pod orphanPolicy
      teamProdFiles ∧
    recordedIdentity plainHost teamProdFiles teamProdArchive = .ok teamProd ∧
    ¬ InScope team teamProd .pod := by
  have hread : recordedIdentity plainHost teamProdFiles teamProdArchive = .ok teamProd := by
    decide +kernel
  refine ⟨?_, by decide, by decide, by decide +kernel, hread, ?_⟩
  · intro path hpath _
    obtain rfl : path = teamProdArchive :=
      ((AList.mem_insert _).mp hpath).resolve_right (AList.notMem_empty path)
    exact ⟨teamProd, "2026-01-01T00:00:00Z", hread, by decide,
      isTimestamp_newYear, by decide +kernel⟩
  · rintro ⟨hns, -⟩
    exact absurd hns (by decide)

end CheckpointRestore.Retention
