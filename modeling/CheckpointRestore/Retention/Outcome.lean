import CheckpointRestore.Retention.Removals

namespace CheckpointRestore.Retention

open Go Interaction Pinning Resource

/-!
# A level, as removals

A level removes a list of archives, and then it returns or has panicked in its second sort.

* `levelRemovals`, `levelPanics` — the list, and the panic;
* `levelOutcome_eq` — a level does just that; `mem_handleLevel`: what it leaves;
* `Pruned` — a directory without some of its archives, such as a level or a pass leaves.
-/

/-! ### Directories that lost archives -/

/-- `t` is `s` without some archives. -/
structure Pruned (s t : FS) : Prop where
  mem : ∀ path ∈ t, path ∈ s
  lookup : ∀ path ∈ t, t.lookup path = s.lookup path
  marker : ∀ path, keepPath path ∈ t ↔ keepPath path ∈ s

theorem Pruned.refl (s : FS) : Pruned s s := ⟨fun _ h => h, fun _ _ => rfl, fun _ => Iff.rfl⟩

variable {s t : FS}

theorem Pruned.trans {u : FS} (h : Pruned s t) (h' : Pruned t u) : Pruned s u where
  mem path hpath := h.mem path (h'.mem path hpath)
  lookup path hpath := (h'.lookup path hpath).trans (h.lookup path (h'.mem path hpath))
  marker path := (h'.marker path).trans (h.marker path)

variable {archives : List String}

theorem pruned_unlinkAll (harch : ∀ archive ∈ archives, IsArchive archive) (s : FS) :
    Pruned s (unlinkAll archives s) where
  mem _ hpath := ((mem_unlinkAll harch).mp hpath).1
  lookup _ hpath := lookup_unlinkAll hpath
  marker _ := keepPath_mem_unlinkAll harch

theorem Pruned.agree (h : Pruned s t) (hin : ∀ archive ∈ archives, archive ∈ t) :
    Agree archives t s :=
  fun archive ha => ⟨h.lookup archive (hin archive ha), h.marker archive⟩

/-! ### Levels -/

variable {archive : String}

section Level
variable (node : Node) (lookups : Lookups) (policies : PolicySnapshot)
  (details : CheckpointDetails) (level : Level) (policy : Policy)

theorem filtered_nodup (s : FS) : (filtered node policies details level s).Nodup := by
  refine List.Nodup.filter _ ?_
  unfold Filepath.glob
  split_ifs
  · exact (List.perm_insertionSort _ _).nodup_iff.mpr (s.keys_nodup.filter _)
  · exact List.nodup_nil

theorem filtered_pairwise (s : FS) :
    (filtered node policies details level s).Pairwise Filepath.PathLe := by
  refine List.Pairwise.filter _ ?_
  cases hglob : Filepath.glob s.keys (levelPattern policies details level) with
  | none => exact List.Pairwise.nil
  | some found => exact Filepath.glob_pairwise hglob

/-- The filtered archives are in the order of the listing, so they are known from their
    members. -/
theorem filtered_unique (hsorted : archives.Pairwise Filepath.PathLe) (hnodup : archives.Nodup)
    (hmem : ∀ archive, archive ∈ archives ↔ archive ∈ filtered node policies details level s) :
    filtered node policies details level s = archives := by
  have hperm : (filtered node policies details level s).Perm archives :=
    (List.perm_ext_iff_of_nodup (filtered_nodup node policies details level s) hnodup).mpr
      (fun archive => (hmem archive).symm)
  exact hperm.eq_of_pairwise (fun _ _ _ _ h h' => h.antisymm h')
    (filtered_pairwise node policies details level s) hsorted

/-- A directory that lost archives is filtered to what is left of the archives. -/
theorem mem_filtered_pruned (h : Pruned s t) :
    archive ∈ filtered node policies details level t ↔
      archive ∈ filtered node policies details level s ∧ archive ∈ t := by
  have hpasses : archive ∈ t → passesFilter node policies level t archive
      = passesFilter node policies level s archive := by
    intro hin
    unfold passesFilter
    rw [recordedIdentity_of_lookup (h.lookup archive hin)]
  rw [mem_filtered, mem_filtered]
  constructor
  · rintro ⟨hvalid, hin, hmatch, hpass⟩
    exact ⟨⟨hvalid, h.mem archive hin, hmatch, (hpasses hin).symm.trans hpass⟩, hin⟩
  · rintro ⟨⟨hvalid, -, hmatch, hpass⟩, hin⟩
    exact ⟨hvalid, hin, hmatch, (hpasses hin).trans hpass⟩

/-- What a level removes. -/
def levelRemovals (s : FS) : List String :=
  if policy.active then
    let archives := filtered node policies details level s
    if takenForOrphans node lookups details level policy s then
      archives.filter (fun archive => !marked s archive)
    else limitRemovals node policy archives s
  else []

/-- The level enforces its limits, and they panic. -/
def levelPanics (s : FS) : Bool :=
  policy.active && !takenForOrphans node lookups details level policy s &&
    limitsPanic node policy (filtered node policies details level s) s

variable {node lookups policies details level policy}

/-- A level removes archives it is left with, and none with a marker. -/
theorem mem_levelRemovals
    (h : archive ∈ levelRemovals node lookups policies details level policy s) :
    archive ∈ filtered node policies details level s ∧ marked s archive = false := by
  unfold levelRemovals at h
  dsimp only at h
  split_ifs at h
  · obtain ⟨hin, hmark⟩ := List.mem_filter.mp h
    exact ⟨hin, by simpa using hmark⟩
  · exact mem_limitRemovals node h
  · exact absurd h List.not_mem_nil

theorem isArchive_of_mem_levelRemovals
    (h : archive ∈ levelRemovals node lookups policies details level policy s) :
    IsArchive archive :=
  isArchive_of_mem_filtered node (mem_levelRemovals h).1

theorem levelPanics_iff (hactive : policy.active = true)
    (horphans : takenForOrphans node lookups details level policy s = false) :
    levelPanics node lookups policies details level policy s = true ↔
      policy.maxTotalSize.cmp
          (countedTotal policy (filtered node policies details level s) s) = .lt ∧
        policy.maxCheckpoints
          < (counted policy s (filtered node policies details level s)).length ∧
        2 ≤ (candidates policy s (filtered node policies details level s)).length := by
  unfold levelPanics
  rw [hactive, horphans, Bool.not_false, Bool.true_and, Bool.true_and]
  exact limitsPanic_iff node (fun _ h => isArchive_of_mem_filtered node h)
    (fun _ h => ((mem_filtered node).mp h).2.1)

/-- Nothing listed is nothing to remove. -/
theorem levelRemovals_of_empty (lookups : Lookups) (policy : Policy)
    (hfiltered : filtered node policies details level s = []) :
    levelRemovals node lookups policies details level policy s = [] ∧
      levelPanics node lookups policies details level policy s = false := by
  have hremovals : levelRemovals node lookups policies details level policy s = [] := by
    refine List.eq_nil_iff_forall_not_mem.mpr (fun archive ha => ?_)
    have hmem := (mem_levelRemovals ha).1
    rw [hfiltered] at hmem
    exact List.not_mem_nil hmem
  refine ⟨hremovals, ?_⟩
  by_contra hpanics
  rw [Bool.not_eq_false] at hpanics
  have hboth := hpanics
  unfold levelPanics at hboth
  simp only [Bool.and_eq_true, Bool.not_eq_true'] at hboth
  have htwo := ((levelPanics_iff hboth.1.1 hboth.1.2).mp hpanics).2.2
  rw [hfiltered] at htwo
  exact absurd htwo (by simp [candidates])

/-- **A level, as removals.** -/
theorem levelOutcome_eq (s : FS) :
    levelOutcome node lookups policies details level policy s
      = (if levelPanics node lookups policies details level policy s then none else some (),
        unlinkAll (levelRemovals node lookups policies details level policy s) s) := by
  set archives := filtered node policies details level s with harchives
  have harch : ∀ archive ∈ archives, IsArchive archive :=
    fun archive h => isArchive_of_mem_filtered node h
  have hin : ∀ archive ∈ archives, archive ∈ s :=
    fun archive h => ((mem_filtered node).mp h).2.1
  have hnodup : archives.Nodup := filtered_nodup node policies details level s
  cases hactive : policy.active with
  | false =>
    rw [levelOutcome_inactive node lookups policies details level hactive, levelPanics, hactive,
      levelRemovals, hactive]
    rfl
  | true =>
    cases hglob : Filepath.glob s.keys (levelPattern policies details level) with
    | none =>
      have hnone : filtered node policies details level s = [] := by
        rw [filtered, hglob]
        rfl
      obtain ⟨hremovals, hpanics⟩ := levelRemovals_of_empty lookups policy hnone
      rw [levelOutcome_of_malformed node lookups policies details level hactive hglob, hremovals,
        hpanics]
      rfl
    | some found =>
      rw [levelOutcome_of_listed node lookups policies details level hactive hglob,
        exec_handleFiltered, ← harchives, levelPanics, levelRemovals, hactive, ← harchives]
      cases takenForOrphans node lookups details level policy s with
      | true => exact Prod.ext rfl (unlinkAll_unmarked harch s)
      | false => exact exec_enforceLimits node lookups policy hnodup harch hin

theorem handleLevel_eq (s : FS) : handleLevel node lookups policies details level policy s
    = unlinkAll (levelRemovals node lookups policies details level policy s) s :=
  congrArg Prod.snd (levelOutcome_eq s)

/-- A level that enforces its limits, once its archives are known. -/
theorem levelOutcome_limits (hactive : policy.active = true)
    (horphans : takenForOrphans node lookups details level policy s = false)
    (hfiltered : filtered node policies details level s = archives) :
    levelOutcome node lookups policies details level policy s
      = (if limitsPanic node policy archives s then none else some (),
        unlinkAll (limitRemovals node policy archives s) s) := by
  rw [levelOutcome_eq, levelPanics, levelRemovals, hactive, hfiltered, horphans]
  rfl

theorem mem_handleLevel {path : String} :
    path ∈ handleLevel node lookups policies details level policy s ↔
      path ∈ s ∧ path ∉ levelRemovals node lookups policies details level policy s := by
  rw [handleLevel_eq, mem_unlinkAll (fun archive ha => isArchive_of_mem_levelRemovals ha)]
  refine and_congr_right (fun _ => imp_congr_right (fun hmem => ?_))
  have hmark := (mem_levelRemovals hmem).2
  simpa [marked] using hmark

/-- What a level removes is among its archives, and has no marker. -/
theorem mem_filtered_of_removed {path : String} (hin : path ∈ s)
    (hout : path ∉ handleLevel node lookups policies details level policy s) :
    path ∈ filtered node policies details level s ∧ keepPath path ∉ s := by
  have hremoved : path ∈ levelRemovals node lookups policies details level policy s := by
    by_contra hno
    exact hout (mem_handleLevel.mpr ⟨hin, hno⟩)
  obtain ⟨hmem, hmark⟩ := mem_levelRemovals hremoved
  exact ⟨hmem, by simpa [marked] using hmark⟩

/-- Whatever a level removes, it leaves the rest as it is. -/
theorem pruned_handleLevel :
    Pruned s (handleLevel node lookups policies details level policy s) := by
  rw [handleLevel_eq]
  exact pruned_unlinkAll (fun archive ha => isArchive_of_mem_levelRemovals ha) s

/-- So does a pass. -/
theorem pruned_pass {lookups : Level → Lookups} {visits : List (Level × Policy)} :
    Pruned s (pass node lookups policies details visits s) :=
  untilPanic_keeps (I := Pruned s) (fun _ _ _ hs => hs.trans pruned_handleLevel) (Pruned.refl s)

end Level

end CheckpointRestore.Retention
