import CheckpointRestore.Retention.Lookup
import CheckpointRestore.Retention.Scope

namespace CheckpointRestore.Retention

open Go Filepath Interaction Pinning

/-!
# The policy hierarchy

The hierarchy of policies is enforced twice: `applyPolicies` selects the most specific policy of
the container it is called for, and each level leaves out the archives of others that have a
more specific policy than its own.

* `mostSpecific` — the policy that governs an identity;
* `visits_eq` — `applyPolicies` works with the policy that governs its container;
* `InScope.mostSpecific` — the two filters agree: what a level may handle in its scope is governed
  by the selected policy;
* `mostSpecific_governs` — a pass removes no archive of the namespace that another policy governs;
* `star_removed` — the names have to stand for themselves in a pattern.
-/

/-! ### The policy that governs an archive -/

/-- A policy of one of the four kinds. -/
inductive Governing where
  | container (policy : ContainerPolicySpec)
  | pod (policy : PodPolicySpec)
  | namespace (policy : NamespacePolicySpec)
  | global
  deriving DecidableEq

namespace PolicySnapshot

/-- The first matching container policy, else the first matching pod policy, else the first
    matching namespace policy, else the global one. -/
def mostSpecific (policies : PolicySnapshot) (details : CheckpointDetails) : Governing :=
  match policies.findContainerPolicy details with
  | some policy => .container policy
  | none =>
    match policies.findPodPolicy details with
    | some policy => .pod policy
    | none =>
      match policies.findNamespacePolicy details with
      | some policy => .namespace policy
      | none => .global

/-- The levels that are handled with a policy. -/
def levelsOf (policies : PolicySnapshot) : Governing → List (Level × Policy)
  | .container policy => [(.container, policy.toPolicy)]
  | .pod policy => [(.pod, policy.toPolicy)]
  | .namespace policy => [(.namespace, policy.toPolicy)]
  | .global => policies.globalPolicies

/-- `applyPolicies` selects the policy that governs its container. -/
theorem visits_eq (policies : PolicySnapshot) (details : CheckpointDetails) :
    policies.visits details = policies.levelsOf (policies.mostSpecific details) := by
  unfold visits mostSpecific
  cases policies.findContainerPolicy details with
  | some policy => rfl
  | none =>
    cases policies.findPodPolicy details with
    | some policy => rfl
    | none =>
      cases policies.findNamespacePolicy details with
      | some policy => rfl
      | none => rfl

end PolicySnapshot

section Hierarchy
variable {node : Node} {policies : PolicySnapshot} {details ref : CheckpointDetails}

/-- No visited level would leave out its own container. -/
theorem excluded_of_mem_visits {visit : Level × Policy} (h : visit ∈ policies.visits details) :
    policies.excluded visit.1 details = false := by
  unfold PolicySnapshot.visits at h
  cases hcontainer : policies.findContainerPolicy details with
  | some policy =>
    rw [hcontainer] at h
    rw [List.mem_singleton.mp h]
    rfl
  | none =>
    cases hpod : policies.findPodPolicy details with
    | some policy =>
      rw [hcontainer, hpod] at h
      rw [List.mem_singleton.mp h, PolicySnapshot.excluded, hcontainer]
      rfl
    | none => cases visit.1 <;> simp [PolicySnapshot.excluded, hcontainer, hpod]

/-- **The selection and the filter agree.**  What a level does not leave out in its own scope is
    all governed by one policy. -/
theorem InScope.mostSpecific {level : Level} (hscope : InScope details ref level)
    (hdetails : policies.excluded level details = false)
    (href : policies.excluded level ref = false) :
    policies.mostSpecific ref = policies.mostSpecific details := by
  obtain ⟨ns, pod, container⟩ := ref
  cases level with
  | container =>
    obtain ⟨rfl, rfl, rfl⟩ := hscope
    rfl
  | pod =>
    obtain ⟨rfl, rfl⟩ := hscope
    rw [PolicySnapshot.excluded, Option.isSome_eq_false_iff, Option.isNone_iff_eq_none]
      at hdetails href
    rw [PolicySnapshot.mostSpecific, PolicySnapshot.mostSpecific, hdetails, href]
    rfl
  | «namespace» =>
    obtain rfl : ns = details.ns := hscope
    simp only [PolicySnapshot.excluded, Bool.or_eq_false_iff, Option.isSome_eq_false_iff,
      Option.isNone_iff_eq_none] at hdetails href
    rw [PolicySnapshot.mostSpecific, PolicySnapshot.mostSpecific, hdetails.1, hdetails.2, href.1,
      href.2]
    rfl

/-! ### The archives of a level -/

/-- A file name that overlaps with those of a level, of an archive of the namespace, is in the
    level's scope. -/
theorem Overlaps.inScope {timestamp : String} {level : Level}
    (h : Overlaps details ref timestamp level) (hns : ref.ns = details.ns) :
    InScope details ref level := by
  cases level with
  | container =>
    obtain ⟨hpod, htext⟩ := h
    rw [hns, ← String.toList_inj] at htext
    simp only [String.toList_append, List.append_cancel_left_eq, String.toList_inj] at htext
    exact ⟨hns, hpod, htext⟩
  | pod => exact ⟨hns, h.1⟩
  | «namespace» => exact hns

/-- Of its own namespace a level finds only archives in its scope, wherever the directory is. -/
theorem inScope_of_globMatch (hdetails : PlainIdentity details) {dir timestamp : String}
    (href : validIdentity ref = true) (ht : IsTimestamp timestamp) (hns : ref.ns = details.ns)
    {level : Level} (hmatch : globMatch (levelPattern policies details level)
      (join dir (kubeletName ref timestamp)) = true) : InScope details ref level := by
  obtain ⟨ps, hps⟩ := splitOn_join policies.checkpointDirectory
    (normal_levelFilePattern hdetails level)
  obtain ⟨es, hes⟩ := splitOn_join dir (normal_kubeletName href ht)
  have hlast := matchPattern_of_globMatch hps hes hmatch
  exact ((matchPattern_levelFilePattern hdetails href ht level).mp hlast).inScope hns

/-- What a pass removes was left to one of its levels. -/
theorem filtered_of_removed {lookups : Level → Lookups} {visits : List (Level × Policy)} {s : FS}
    {path : String} (hin : path ∈ s) (hout : path ∉ pass node lookups policies details visits s) :
    ∃ visit ∈ visits, ∃ t, Pruned s t ∧ path ∈ filtered node policies details visit.1 t := by
  -- a directory without the archive has lost it to a level
  have hkept := untilPanic_keeps (l := visits) (s := s)
    (g := fun visit => levelOutcome node (lookups visit.1) policies details visit.1 visit.2)
    (I := fun t => Pruned s t ∧ (path ∉ t → ∃ visit ∈ visits, ∃ t', Pruned s t' ∧
      path ∈ filtered node policies details visit.1 t')) ?_
    ⟨Pruned.refl s, fun hno => absurd hin hno⟩
  · exact hkept.2 hout
  · rintro visit hvisit t ⟨hpruned, hlost⟩
    refine ⟨hpruned.trans pruned_handleLevel, fun hgone => ?_⟩
    by_cases ht : path ∈ t
    · exact ⟨visit, hvisit, t, hpruned, (mem_filtered_of_removed ht hgone).1⟩
    · exact hlost ht

/-- **The most specific policy governs an archive.**  Where the kubelet has named the archives, a
    pass removes no archive of its namespace that is governed by another policy than the one it
    has selected. -/
theorem mostSpecific_governs {lookups : Level → Lookups} {s : FS} {dir : String}
    (hnamed : KubeletNamed node.host dir s) (hpod : PlainName details.pod)
    (hcontainer : PlainName details.container) {path : String} (hin : path ∈ s)
    (hout : path ∉ pass node lookups policies details (policies.visits details) s)
    (href : recordedIdentity node.host s path = .ok ref) (hns : ref.ns = details.ns) :
    policies.mostSpecific ref = policies.mostSpecific details := by
  obtain ⟨visit, hvisit, t, hpruned, hfiltered⟩ := filtered_of_removed hin hout
  obtain ⟨-, hleft, hmatch, hpasses⟩ := (mem_filtered node).mp hfiltered
  obtain ⟨ref', timestamp, href', hvalid, ht, rfl⟩ :=
    hnamed path hin (isArchive_of_mem_filtered node hfiltered)
  obtain rfl : ref = ref' := Except.ok.inj (href.symm.trans href')
  -- the names of the archive are valid, so its namespace is plain
  have hdetails : PlainIdentity details :=
    ⟨hns ▸ (plainIdentity_of_validIdentity hvalid).ns, hpod, hcontainer⟩
  have hscope := inScope_of_globMatch hdetails hvalid ht hns hmatch
  -- the level has read the same identity
  obtain ⟨ref', href', hex⟩ := (passesFilter_iff node).mp hpasses
  rw [recordedIdentity_of_lookup (hpruned.lookup _ hleft)] at href'
  obtain rfl : ref = ref' := Except.ok.inj (href.symm.trans href')
  exact hscope.mostSpecific (excluded_of_mem_visits hvisit) hex

end Hierarchy

/-! ### A checkpoint of another pod -/

theorem kubeletNamed_webFiles : KubeletNamed stableNode.host "/ckpt" webFiles := by
  intro path hpath _
  obtain rfl : path = webArchive :=
    ((AList.mem_insert _).mp hpath).resolve_right (AList.notMem_empty path)
  exact ⟨webDetails, "2026-01-01T00:00:00Z", webArchive_recorded, by decide,
    isTimestamp_newYear, by decide⟩

/-- A pod next to it in the namespace. -/
def api : CheckpointDetails := ⟨"default", "api", "app"⟩

/-- Orphans of the namespace are not retained; no limit is set for it. -/
def defaultPolicy : PolicySnapshot :=
  { dropOrphans with namespacePolicies := [⟨⟨some false, none, none, none⟩, "default"⟩] }

/-- The pass for one pod removes the checkpoint of the other: the policy for the namespace governs
    both. -/
theorem mostSpecific_governs_neighbour :
    KubeletNamed stableNode.host "/ckpt" webFiles ∧ webDetails.pod ≠ api.pod ∧
    webArchive ∉ pass stableNode (fun _ => unreachable) defaultPolicy api
      (defaultPolicy.visits api) webFiles ∧
    defaultPolicy.mostSpecific webDetails = defaultPolicy.mostSpecific api := by
  have hapi : PlainIdentity api := plainIdentity_of_validIdentity (by decide)
  have hremoved : webArchive ∉ pass stableNode (fun _ => unreachable) defaultPolicy api
      (defaultPolicy.visits api) webFiles := by
    decide +kernel
  exact ⟨kubeletNamed_webFiles, by decide, hremoved, mostSpecific_governs kubeletNamed_webFiles
    hapi.pod hapi.container (by decide) hremoved webArchive_recorded rfl⟩

/-- A container of a pod that is called `*`. -/
def star : CheckpointDetails := ⟨"default", "*", "nginx"⟩

/-- A policy for that pod. -/
def starPolicy : PolicySnapshot :=
  { dropOrphans with podPolicies := [⟨⟨some false, none, none, none⟩, "default", "*"⟩] }

/-- The pass for the pod `*` removes the checkpoint of another pod, which the global policy
    governs. -/
theorem star_removed :
    KubeletNamed stableNode.host "/ckpt" webFiles ∧ webArchive ∈ webFiles ∧
    webArchive ∉ pass stableNode (fun _ => unreachable) starPolicy star
      (starPolicy.visits star) webFiles ∧
    recordedIdentity stableNode.host webFiles webArchive = .ok webDetails ∧
    webDetails.ns = star.ns ∧
      starPolicy.mostSpecific webDetails ≠ starPolicy.mostSpecific star := by
  have hglobal : starPolicy.mostSpecific webDetails = .global := rfl
  have hstar : starPolicy.mostSpecific star
      = .pod ⟨⟨some false, none, none, none⟩, "default", "*"⟩ := rfl
  refine ⟨kubeletNamed_webFiles, by decide, by decide +kernel, webArchive_recorded, rfl, ?_⟩
  rw [hglobal, hstar]
  exact Governing.noConfusion

end CheckpointRestore.Retention
