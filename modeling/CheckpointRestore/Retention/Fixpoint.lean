import CheckpointRestore.Retention.Immediate
import CheckpointRestore.Retention.Scope
import CheckpointRestore.Retention.Settled

namespace CheckpointRestore.Retention

open Go Interaction Pinning Resource

/-!
# One pass is enough

Every level a pass visits is settled when the pass is over, and stays so whatever other passes
remove.  So a second pass removes nothing, and after `applyPoliciesImmediately` neither does a
pass for any identity it visited.

* `LevelSettled` — nothing is left to do at a level; `LevelSettled.pruned`: nor is there after
  other removals;
* `levelSettled_handleLevel` — a level that was handled is settled;
* `retention_fixpoint` — the passes after the first remove nothing;
* `fixpoint_missed` — a limit below zero, a pass that panics, and an archive that
  `applyPoliciesImmediately` does not list, with which they do.
-/

/-! ### Settled passes -/

/-- A limit that an `int64` can hold, or a decimal, and not below zero. -/
def NonNegLimit (limit : Quantity) : Prop := limit.Representable ∧ 0 ≤ limit.asDec.1

section Level
variable (node : Node) (lookups : Lookups) (policies : PolicySnapshot)

/-- Nothing is left to remove at the level. -/
def LevelSettled (details : CheckpointDetails) (visit : Level × Policy) (s : FS) : Prop :=
  visit.2.active = true →
    if takenForOrphans node lookups details visit.1 visit.2 s then
      ∀ archive ∈ filtered node policies details visit.1 s, marked s archive = true
    else Settled visit.2 (filtered node policies details visit.1 s) s

variable {node lookups policies} {details : CheckpointDetails} {visit : Level × Policy} {s t : FS}

theorem levelOutcome_of_settled (hfits : SizesFit s)
    (h : LevelSettled node lookups policies details visit s) :
    levelOutcome node lookups policies details visit.1 visit.2 s = (some (), s) := by
  cases hactive : visit.2.active with
  | false => exact levelOutcome_inactive node lookups policies details visit.1 hactive s
  | true =>
    have hsettled := h hactive
    split_ifs at hsettled with horphans
    · exact levelOutcome_pinned (fun archive ha => by simpa [marked] using hsettled archive ha)
    · have htotal := hfits.of_filtered node policies details visit.1
      obtain ⟨hremovals, hreturns⟩ := limits_of_settled node htotal hsettled
      rw [levelOutcome_limits hactive (Bool.not_eq_true _ |>.mp horphans) rfl, hremovals, hreturns]
      rfl

/-- **A settled level stays settled** when archives are removed. -/
theorem LevelSettled.pruned (h : LevelSettled node lookups policies details visit s)
    (hpruned : Pruned s t) : LevelSettled node lookups policies details visit t := by
  intro hactive
  have hs := h hactive
  have hmem : ∀ archive ∈ filtered node policies details visit.1 t,
      archive ∈ filtered node policies details visit.1 s ∧ archive ∈ t :=
    fun archive ha => (mem_filtered_pruned node policies details visit.1 hpruned).mp ha
  have hagree : Agree (filtered node policies details visit.1 t) t s :=
    hpruned.agree (fun archive ha => (hmem archive ha).2)
  rw [takenForOrphans_congr s t] at hs
  split_ifs at hs ⊢ with horphans
  · intro archive ha
    rw [hagree.marked ha]
    exact hs archive (hmem archive ha).1
  · have hfewer := List.subperm_of_subset (filtered_nodup node policies details visit.1 t)
      (fun archive ha => (hmem archive ha).1)
    exact hs.mono hfewer hagree

/-- **A level that was handled is settled**, if it returned. -/
theorem levelSettled_handleLevel (hlimit : NonNegLimit visit.2.maxTotalSize) (hfits : SizesFit s)
    (hreturns : (levelOutcome node lookups policies details visit.1 visit.2 s).1 = some ()) :
    LevelSettled node lookups policies details visit
      (handleLevel node lookups policies details visit.1 visit.2 s) := by
  intro hactive
  set t := handleLevel node lookups policies details visit.1 visit.2 s with ht
  set archives := filtered node policies details visit.1 s with harchives
  have hpruned : Pruned s t := pruned_handleLevel
  have hmem : ∀ archive ∈ filtered node policies details visit.1 t,
      archive ∈ archives ∧ archive ∈ t :=
    fun archive ha => (mem_filtered_pruned node policies details visit.1 hpruned).mp ha
  have hleft : ∀ archive ∈ filtered node policies details visit.1 t,
      archive ∉ levelRemovals node lookups policies details visit.1 visit.2 s :=
    fun archive ha => (mem_handleLevel.mp (hmem archive ha).2).2
  have hagree : Agree (filtered node policies details visit.1 t) t s :=
    hpruned.agree (fun archive ha => (hmem archive ha).2)
  unfold levelRemovals at hleft
  rw [if_pos hactive] at hleft
  rw [takenForOrphans_congr t s]
  -- whether the archives are orphans does not depend on the files, so both passes agree on it
  split_ifs at hleft ⊢ with horphans
  · intro archive ha
    rw [hagree.marked ha]
    by_contra hmark
    exact hleft archive ha (List.mem_filter.mpr ⟨(hmem archive ha).1, by simpa using hmark⟩)
  · have hnodup : archives.Nodup := filtered_nodup node policies details visit.1 s
    have htotal : totalSize s archives < 2 ^ 63 := hfits.of_filtered node policies details visit.1
    have hpanics : limitsPanic node visit.2 archives s = false := by
      by_contra hno
      rw [levelOutcome_limits hactive (Bool.not_eq_true _ |>.mp horphans) harchives.symm,
        (Bool.not_eq_false _).mp hno] at hreturns
      exact absurd hreturns (by simp)
    have hsettled := settled_limitRemovals node hlimit.1 hlimit.2 hnodup
      (filtered_nodup node policies details visit.1 t) htotal hpanics
      (fun archive ha => ⟨(hmem archive ha).1, hleft archive ha⟩)
    -- what is left has the sizes, ages and markers it had, so it is settled where it now is
    exact hsettled.mono (List.Subperm.refl _) hagree

end Level

/-! ### Passes -/

section Pass
variable {node : Node} {lookups : Lookups} {policies : PolicySnapshot}
  {details : CheckpointDetails} {visits : List (Level × Policy)} {s : FS}

/-- A pass that returns has settled every level it visits. -/
theorem levelSettled_pass (hlimits : ∀ visit ∈ visits, NonNegLimit visit.2.maxTotalSize)
    (hfits : SizesFit s)
    (hreturns : (passOutcome node (fun _ => lookups) policies details visits s).1 = some ()) :
    ∀ visit ∈ visits, LevelSettled node lookups policies details visit
      (pass node (fun _ => lookups) policies details visits s) :=
  untilPanic_reaches (I := SizesFit) (R := LevelSettled node lookups policies details)
    (g := fun visit : Level × Policy =>
      levelOutcome node lookups policies details visit.1 visit.2)
    (fun _ _ _ hs => hs.pruned pruned_handleLevel)
    (fun visit hvisit _ hs hlevel => levelSettled_handleLevel (hlimits visit hvisit) hs hlevel)
    (fun _ _ _ _ _ hsettled => hsettled.pruned pruned_handleLevel) hfits hreturns

/-- A pass over settled levels removes nothing, and returns. -/
theorem passOutcome_of_settled (hfits : SizesFit s)
    (h : ∀ visit ∈ visits, LevelSettled node lookups policies details visit s) :
    passOutcome node (fun _ => lookups) policies details visits s = (some (), s) :=
  untilPanic_idle (fun visit hvisit => levelOutcome_of_settled hfits (h visit hvisit))

variable {entries : AList (fun _ : String => CheckpointDetails)} {order : List String}

theorem pruned_visitEntry (key : String) :
    Pruned s (visitEntry node lookups policies entries key s).2 := by
  unfold visitEntry
  cases entries.lookup key with
  | none => exact Pruned.refl s
  | some details => exact pruned_pass

theorem pruned_immediately : Pruned s (immediately node lookups policies order s) :=
  untilPanic_keeps (I := Pruned s) (fun key _ _ hs => hs.trans (pruned_visitEntry key))
    (Pruned.refl s)

/-- No total-size limit that a pass can select is below zero. -/
def NonNegLimits (policies : PolicySnapshot) : Prop :=
  ∀ details, ∀ visit ∈ policies.visits details, NonNegLimit visit.2.maxTotalSize

/-- If the passes return, they have settled every level of every identity they visit. -/
theorem levelSettled_immediately (hlimits : NonNegLimits policies) (hfits : SizesFit s)
    (hreturns : (immediatelyOutcome node lookups policies order s).1 = some ())
    {key : String} (hkey : key ∈ order)
    (hdetails : (categorized node policies s).lookup key = some details) :
    ∀ visit ∈ policies.visits details, LevelSettled node lookups policies details visit
      (immediately node lookups policies order s) := by
  have hreached := untilPanic_reaches (I := SizesFit)
    (R := fun key t => ∀ details, (categorized node policies s).lookup key = some details →
      ∀ visit ∈ policies.visits details, LevelSettled node lookups policies details visit t)
    (fun key _ _ ht => ht.pruned (pruned_visitEntry key))
    (fun key _ t ht hentry details hlookup => ?_)
    (fun key _ _ _ _ hsettled details hlookup visit hvisit =>
      (hsettled details hlookup visit hvisit).pruned (pruned_visitEntry key)) hfits hreturns
  · exact hreached key hkey details hdetails
  · rw [visitEntry, hlookup] at hentry ⊢
    exact levelSettled_pass (hlimits details) ht hentry

end Pass

/-- **Retention reaches its fixpoint in one pass.**  If no total-size limit is below zero and the
    pass does not panic, a second pass removes nothing; and after `applyPoliciesImmediately`, in
    whatever order it visits its map, nor do passes for identities it visited; these are all it
    lists and reads whose names contain no `/`. -/
theorem retention_fixpoint (node : Node) (lookups : Lookups) (policies : PolicySnapshot) (s : FS)
    (hlimits : NonNegLimits policies) (hfits : SizesFit s) :
    (∀ details,
      (passOutcome node (fun _ => lookups) policies details (policies.visits details) s).1
          = some () →
      let once := pass node (fun _ => lookups) policies details (policies.visits details) s
      passOutcome node (fun _ => lookups) policies details (policies.visits details) once
        = (some (), once)) ∧
    (∀ order, order.Perm (categorized node policies s).keys →
      (immediatelyOutcome node lookups policies order s).1 = some () →
      ∀ later : List CheckpointDetails,
      (∀ details ∈ later, ∃ key, (categorized node policies s).lookup key = some details) →
      let once := immediately node lookups policies order s
      untilPanic (fun details => passOutcome node (fun _ => lookups) policies details
          (policies.visits details)) later once = (some (), once)) ∧
    (∀ archive ∈ s, Filepath.globMatch (allPattern policies) archive = true →
      ∀ details, recordedIdentity node.host s archive = .ok details → SlashFree details →
      ∃ key, (categorized node policies s).lookup key = some details) := by
  refine ⟨fun details hreturns => ?_, fun order horder hreturns later hlater => ?_, ?_⟩
  · exact passOutcome_of_settled (hfits.pruned pruned_pass)
      (levelSettled_pass (hlimits details) hfits hreturns)
  · refine untilPanic_idle (fun details hdetails => ?_)
    obtain ⟨key, hkey⟩ := hlater details hdetails
    -- an identity that is in the map is visited, in whatever order
    have hmem : key ∈ order := by
      refine horder.symm.subset (AList.mem_keys.mp ?_)
      rw [← AList.lookup_isSome, hkey]
      rfl
    exact passOutcome_of_settled (hfits.pruned pruned_immediately)
      (levelSettled_immediately hlimits hfits hreturns hmem hkey)
  · intro archive hin hmatch details href hfree
    exact ⟨entryKey details, categorized_of_listed hin hmatch href hfree⟩

/-! ### Two checkpoints of one container -/

/-- The next day's checkpoint of the same container. -/
def laterArchive : String := "/ckpt/checkpoint-web_default-nginx-2026-01-02T00:00:00Z.tar"

/-- The directory with that checkpoint alone. -/
def laterFiles : FS := FS.put ∅ laterArchive (.tar 10240 (containerdArchive webDetails "")) 1

/-- The directory with both checkpoints. -/
def bothFiles : FS := FS.put laterFiles webArchive (.tar 10240 (containerdArchive webDetails "")) 0

/-- The pod has limits of its own. -/
def podPolicy (limits : Limits) : PolicySnapshot :=
  { dropOrphans with podPolicies := [⟨limits, "default", "web"⟩] }

theorem nonNegLimit_new {n : ℤ} (hn : 0 ≤ n) (hmax : n < 2 ^ 63) : NonNegLimit (.new n) :=
  ⟨⟨⟨by omega, hmax⟩, by norm_num⟩, hn⟩

theorem nonNegLimits_podPolicy {limits : Limits} (h : NonNegLimit limits.toPolicy.maxTotalSize) :
    NonNegLimits (podPolicy limits) := by
  intro details visit hvisit
  have hcontainer : (podPolicy limits).findContainerPolicy details = none := rfl
  unfold PolicySnapshot.visits at hvisit
  rw [hcontainer] at hvisit
  cases hpod : (podPolicy limits).findPodPolicy details with
  | some policy =>
    have hpolicy : policy = ⟨limits, "default", "web"⟩ :=
      List.mem_singleton.mp (List.mem_of_find?_eq_some hpod)
    rw [hpod] at hvisit
    rw [List.mem_singleton.mp hvisit, hpolicy]
    exact h
  | none =>
    rw [hpod] at hvisit
    have hglobal : visit ∈ (podPolicy limits).globalPolicies := hvisit
    simp only [PolicySnapshot.globalPolicies, List.mem_cons, List.not_mem_nil, or_false] at hglobal
    rcases hglobal with rfl | rfl | rfl <;>
      exact nonNegLimit_new (n := 2 ^ 40) (by norm_num) (by norm_num)

/-- The pass for the pod handles its level. -/
def podPass (limits : Limits) (s : FS) : Option Unit × FS :=
  passOutcome stableNode (fun _ => running) (podPolicy limits) webDetails
    ((podPolicy limits).visits webDetails) s

/-- One checkpoint is kept. -/
def keepOne : Limits := ⟨none, some 1, none, some (.new (2 ^ 40))⟩

/-- With one checkpoint kept of the two, a second pass removes nothing. -/
theorem retention_fixpoint_keepOne :
    NonNegLimits (podPolicy keepOne) ∧ SizesFit bothFiles ∧
    (podPass keepOne bothFiles).2 = laterFiles ∧
    podPass keepOne laterFiles = (some (), laterFiles) := by
  have hlimits : NonNegLimits (podPolicy keepOne) :=
    nonNegLimits_podPolicy (nonNegLimit_new (n := 2 ^ 40) (by norm_num) (by norm_num))
  have hfits : SizesFit bothFiles := by decide +kernel
  have hfirst : (podPass keepOne bothFiles).1 = some () ∧
      (podPass keepOne bothFiles).2.entries = laterFiles.entries := by
    decide +kernel
  have honce : (podPass keepOne bothFiles).2 = laterFiles := AList.ext hfirst.2
  have hsecond := (retention_fixpoint stableNode running (podPolicy keepOne) bothFiles hlimits
    hfits).1 webDetails hfirst.1
  exact ⟨hlimits, hfits, honce, honce ▸ hsecond⟩

/-! ### Limits that are not met -/

/-- A total-size limit of -9223372036854776k: its `Value` wraps around to a positive number, so
    that the level is handled. -/
def belowZero : Limits := ⟨none, none, none, some (.int64 (-9223372036854776) 3)⟩

/-- Limits that are both exceeded: one checkpoint of one byte. -/
def pressed : Limits := ⟨none, some 1, none, some (.new 1)⟩

/-! ### An archive that is not listed -/

/-- Orphans of the pod `web` of `team` are not retained; no other level is handled. -/
def teamPolicy : PolicySnapshot where
  checkpointDirectory := "/ckpt"
  retainOrphan := true
  maxCheckpointsPerContainer := 0
  maxCheckpointsPerPod := 0
  maxCheckpointsPerNamespace := 0
  maxCheckpointSize := .new 0
  maxTotalSizePerPod := .new 0
  maxTotalSizePerContainer := .new 0
  maxTotalSizePerNamespace := .new 0
  containerPolicies := []
  podPolicies := [⟨⟨some false, none, none, none⟩, "team", "web"⟩]
  namespacePolicies := []

/-- A checkpoint of `team`, saved under another name, next to that of `team-prod`. -/
def savedFiles : FS :=
  FS.put teamProdFiles "/ckpt/saved.tar" (.tar 10240 (containerdArchive team "")) 0

/-- **What one pass does not reach.**  Under a limit below zero a second pass removes again, and
    so it does if the first has panicked; and after `applyPoliciesImmediately`, in its only order,
    so does a pass for the identity of an archive that it does not list. -/
theorem fixpoint_missed :
    (SizesFit bothFiles ∧ (podPass belowZero bothFiles).1 = some () ∧
      let once := (podPass belowZero bothFiles).2
      laterArchive ∈ once ∧ laterArchive ∉ (podPass belowZero once).2) ∧
    (NonNegLimits (podPolicy pressed) ∧ (podPass pressed bothFiles).1 = none ∧
      let once := (podPass pressed bothFiles).2
      laterArchive ∈ once ∧ laterArchive ∉ (podPass pressed once).2) ∧
    (SizesFit savedFiles ∧
      (∃ archive ∈ savedFiles, recordedIdentity plainHost savedFiles archive = .ok team) ∧
      ∀ order, order.Perm (categorized stableNode teamPolicy savedFiles).keys →
        let once := immediately stableNode noResources teamPolicy order savedFiles
        teamProdArchive ∈ once ∧ teamProdArchive ∉ pass stableNode (fun _ => noResources)
          teamPolicy team (teamPolicy.visits team) once) := by
  have hlimits : NonNegLimits (podPolicy pressed) :=
    nonNegLimits_podPolicy (nonNegLimit_new (n := 1) (by norm_num) (by norm_num))
  refine ⟨by decide +kernel, ⟨hlimits, by decide +kernel⟩, by decide +kernel,
    ⟨"/ckpt/saved.tar", by decide +kernel⟩, fun order horder => ?_⟩
  -- only `team-prod` is listed: none of its levels is handled, and its checkpoint stays; the
  -- pattern of a pass for `team` then matches its name, and it is taken for an orphan
  have hkeys : (categorized stableNode teamPolicy savedFiles).keys = [entryKey teamProd] := by
    decide +kernel
  rw [hkeys] at horder
  obtain rfl := List.perm_singleton.mp horder
  decide +kernel

end CheckpointRestore.Retention
