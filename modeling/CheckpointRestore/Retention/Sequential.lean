import CheckpointRestore.Retention.Collector

namespace CheckpointRestore.Retention

open Go Interaction Pinning Resource

/-!
# One pass of the collector on its own

Nothing else touches the directory while a level is handled, no system call fails, and the
API server gives the same answers to one level; the next level may be answered differently.

* `answer` — the operations as functions of the files, of the node and of the API server;
  `answer_act` says these are possible answers of the shared world;
* `levelOutcome`, `handleLevel` — one level: whether it returned or panicked, and what it leaves;
* `pass` — `applyPolicies` level after level, up to a panic, and `pass_runs`: a pass is a run of
  it;
* `filtered` — the archives a level is left with after its filter;
* `unlinkAll`, `mem_unlinkAll` — removals one after the other, and what they leave;
* `mem_deleteOrphans` — the survivors of the orphan path;
* `keeps_losesOnly`, `keeps_pinned` — the other paths remove only filtered archives without a
  marker.
-/

/-! ### Answers -/

/-- What a pass reads besides the files: the host's decoders and `sort.Slice`, which permutes
    the slice as the comparison it is given tells it to. -/
structure Node where
  host : Host
  sort : (String → String → Bool) → List String → List String
  sort_perm : ∀ less archives, (sort less archives).Perm archives
  snapshot : PolicySnapshot

/-- A node whose `sort.Slice` is an insertion sort, which it is on short slices. -/
def stableNode : Node where
  host := plainHost
  sort less archives := archives.insertionSort (fun a b => less b a = false)
  sort_perm _ archives := List.perm_insertionSort _ archives
  snapshot := dropOrphans

/-- The API server's answers. -/
structure Lookups where
  getPod : String → String → ApiReply (List String)
  getNamespace : String → ApiReply Unit

/-- The comparison of `selectArchivesToDelete`: older first.  After its log line, a file that cannot
    be looked at is before no other. -/
def modTimeBefore (s : FS) (a b : String) : Bool :=
  match s.stat a, s.stat b with
  | some x, some y => decide (x.modTime < y.modTime)
  | _, _ => false

/-- The comparison panics: every sort of two archives or more looks at each of them, and one of
    them is not there. -/
def comparisonPanics (s : FS) (archives : List String) : Bool :=
  decide (2 ≤ archives.length) && archives.any (fun archive => (s.stat archive).isNone)

/-- `sort.Slice`, with the comparison of `selectArchivesToDelete`. -/
def Node.sortByTime (node : Node) (s : FS) (archives : List String) : Option (List String) :=
  if comparisonPanics s archives then none else some (node.sort (modTimeBefore s) archives)

variable {s : FS}

theorem Node.sortByTime_perm {node : Node} {archives sorted : List String}
    (h : node.sortByTime s archives = some sorted) : sorted.Perm archives := by
  unfold Node.sortByTime at h
  by_cases hpanics : comparisonPanics s archives = true
  · rw [if_pos hpanics] at h
    exact absurd h (by simp)
  · rw [if_neg hpanics] at h
    obtain rfl := Option.some.inj h
    exact node.sort_perm _ archives

/-- The operations, answered without failures of system calls. -/
def answer (node : Node) (lookups : Lookups) : (op : gcSig.Op) → FS → gcSig.Reply op × FS
  | .stat path, s => (s.stat path, s)
  | .glob pattern, s => (Filepath.glob s.keys pattern, s)
  | .readRef archive, s => (recordedIdentity node.host s archive, s)
  | .getPod ns pod, s => (lookups.getPod ns pod, s)
  | .getNamespace ns, s => (lookups.getNamespace ns, s)
  | .sortSlice archives, s => (node.sortByTime s archives, s)
  | .rangeMap keys, s => (keys, s)
  | .currentPolicySnapshot, s => (node.snapshot, s)
  | .removeUnlessPinned archive, s => exec (FsOp.answer 0) (removeArchiveUnlessPinned archive) s
  | .pin path owner, s => exec (FsOp.answer 0) (pinLocked path owner) s
  | .unpin path owner, s => exec (FsOp.answer 0) (Pinning.unpinCheckpoint path owner) s

theorem answer_act (node : Node) (lookups : Lookups) (op : gcSig.Op) (s : FS) :
    GcOp.act node.host FsOp.noFault op s (answer node lookups op s).1
      (answer node lookups op s).2 := by
  have hsection : ∀ {α : Type} (p : Prog fsSig α), ∃ tr, Runs (FsOp.act FsOp.noFault) p s tr
      (exec (FsOp.answer 0) p s).1 (exec (FsOp.answer 0) p s).2 :=
    fun p => ⟨_, Runs.of_exec (FsOp.answer_act FsOp.noFault 0) p s⟩
  cases op with
  | stat path => exact ⟨Or.inl rfl, rfl⟩
  | glob pattern => exact ⟨rfl, rfl⟩
  | readRef archive => exact ⟨fun ref h => h, rfl⟩
  | getPod ns pod => rfl
  | getNamespace ns => rfl
  | sortSlice archives =>
    refine ⟨?_, rfl⟩
    by_cases hpanics : comparisonPanics s archives = true
    · have hlength : 2 ≤ archives.length := by
        unfold comparisonPanics at hpanics
        simp only [Bool.and_eq_true, decide_eq_true_eq] at hpanics
        exact hpanics.1
      exact Or.inr ⟨if_pos hpanics, hlength⟩
    · exact Or.inl ⟨_, if_neg hpanics, node.sort_perm _ archives⟩
  | rangeMap keys => exact ⟨List.Perm.refl keys, rfl⟩
  | currentPolicySnapshot => rfl
  | removeUnlessPinned archive => exact hsection _
  | pin path owner => exact hsection _
  | unpin path owner => exact hsection _

/-- One level: whether it returned, and the files it leaves. -/
def levelOutcome (node : Node) (lookups : Lookups) (policies : PolicySnapshot)
    (details : CheckpointDetails) (level : Level) (policy : Policy) (s : FS) : Option Unit × FS :=
  exec (answer node lookups) (handleCheckpointsForLevel policies details level policy).run s

/-- The files a level leaves. -/
def handleLevel (node : Node) (lookups : Lookups) (policies : PolicySnapshot)
    (details : CheckpointDetails) (level : Level) (policy : Policy) (s : FS) : FS :=
  (levelOutcome node lookups policies details level policy s).2

/-- `applyPolicies`, each level with its own answers of the API server, up to a level that
    panics. -/
def passOutcome (node : Node) (lookups : Level → Lookups) (policies : PolicySnapshot)
    (details : CheckpointDetails) : List (Level × Policy) → FS → Option Unit × FS :=
  untilPanic (fun visit =>
    levelOutcome node (lookups visit.1) policies details visit.1 visit.2)

/-- The files a pass leaves. -/
def pass (node : Node) (lookups : Level → Lookups) (policies : PolicySnapshot)
    (details : CheckpointDetails) (visits : List (Level × Policy)) (s : FS) : FS :=
  (passOutcome node lookups policies details visits s).2

/-- A pass is a run of `applyPolicies`. -/
theorem pass_runs (node : Node) (lookups : Level → Lookups) (policies : PolicySnapshot)
    (details : CheckpointDetails) (s : FS) :
    ∃ tr, Runs (GcOp.act node.host FsOp.noFault) (policies.applyPolicies details).run s tr
      (passOutcome node lookups policies details (policies.visits details) s).1
      (pass node lookups policies details (policies.visits details) s) :=
  Runs.forM_panic (fun visit s => ⟨_, Runs.of_exec (answer_act node (lookups visit.1))
    (handleCheckpointsForLevel policies details visit.1 visit.2).run s⟩) _ s

/-! ### Looking changes nothing -/

section Exec
variable (node : Node) (lookups : Lookups)

theorem exec_looks {α : Type} {p : Prog gcSig α} (hp : Issues GcOp.looks p) (s : FS) :
    (exec (answer node lookups) p s).2 = s := by
  refine exec_state_of_issues (fun op s hop => ?_) hp s
  cases op <;> first | exact absurd hop id | rfl

@[simp] theorem exec_isCheckpointPinned (archive : String) (s : FS) :
    exec (answer node lookups) (isCheckpointPinned archive) s
      = (decide (keepPath archive ∈ s), s) := by
  show ((s.stat (keepPath archive)).isSome, s) = _
  rw [Bool.eq_iff_iff.mpr (FS.stat_isSome.trans decide_eq_true_iff.symm)]

/-- A removal under the lock. -/
theorem exec_removeUnlessPinned (archive : String) (s : FS) :
    (exec (answer node lookups) (Gc.removeUnlessPinned archive) s).2
      = if archive ∈ s ∧ keepPath archive ∉ s then s.erase archive else s := by
  show (exec (FsOp.answer 0) (removeArchiveUnlessPinned archive) s).2 = _
  have hstat : exec (FsOp.answer 0) (Pinning.isCheckpointPinned archive) s
      = (decide (keepPath archive ∈ s), s) := by
    show ((s.stat (keepPath archive)).isSome, s) = _
    rw [Bool.eq_iff_iff.mpr (FS.stat_isSome.trans decide_eq_true_iff.symm)]
  rw [removeArchiveUnlessPinned, exec_bind, hstat]
  by_cases hkeep : keepPath archive ∈ s
  · rw [decide_eq_true hkeep, if_neg (fun h => h.2 hkeep)]
    rfl
  · rw [decide_eq_false hkeep]
    show (FsOp.answer 0 (.remove archive) s).2 = _
    by_cases hin : archive ∈ s
    · rw [if_pos ⟨hin, hkeep⟩, FsOp.answer, if_pos hin]
    · rw [if_neg (fun h => hin h.1), FsOp.answer, if_neg hin]

end Exec

/-! ### Unlinking -/

/-- What a removal under the lock leaves. -/
def unlink (s : FS) (archive : String) : FS :=
  if archive ∈ s ∧ keepPath archive ∉ s then s.erase archive else s

/-- Removals one after the other. -/
def unlinkAll (archives : List String) (s : FS) : FS := archives.foldl unlink s

theorem unlinkAll_append (xs ys : List String) (s : FS) :
    unlinkAll (xs ++ ys) s = unlinkAll ys (unlinkAll xs s) := List.foldl_append

variable {archive path : String}

theorem lookup_unlink (h : path ∈ unlink s archive) :
    (unlink s archive).lookup path = s.lookup path := by
  unfold unlink at h ⊢
  split_ifs at h ⊢ with hgone
  · exact AList.lookup_erase_ne (AList.mem_erase.mp h).1
  · rfl

theorem mem_unlink : path ∈ unlink s archive ↔ path ∈ s ∧ (path = archive → keepPath path ∈ s) := by
  unfold unlink
  split_ifs with hgone
  · rw [AList.mem_erase]
    constructor
    · rintro ⟨hne, hin⟩
      exact ⟨hin, fun heq => absurd heq hne⟩
    · rintro ⟨hin, hkeep⟩
      exact ⟨fun heq => hgone.2 (heq ▸ hkeep heq), hin⟩
  · refine (and_iff_left_of_imp (fun hin heq => ?_)).symm
    subst heq
    by_contra hno
    exact hgone ⟨hin, hno⟩

theorem keepPath_mem_unlink (harch : IsArchive archive) :
    keepPath path ∈ unlink s archive ↔ keepPath path ∈ s := by
  rw [mem_unlink]
  exact and_iff_left (fun heq => absurd heq.symm (harch.ne_keepPath path))

section Unlink
variable {archives : List String} {s : FS} {path : String}

/-- What is left is as it was. -/
theorem lookup_unlinkAll (h : path ∈ unlinkAll archives s) :
    (unlinkAll archives s).lookup path = s.lookup path := by
  induction archives generalizing s with
  | nil => rfl
  | cons archive rest ih =>
    have hrest := ih h
    have hmid : path ∈ unlink s archive := by
      rw [← AList.lookup_isSome, ← hrest, AList.lookup_isSome]
      exact h
    exact hrest.trans (lookup_unlink hmid)

/-- **What is left**: archives with a marker, and all that is not on the list. -/
theorem mem_unlinkAll (harch : ∀ archive ∈ archives, IsArchive archive) :
    path ∈ unlinkAll archives s ↔ path ∈ s ∧ (path ∈ archives → keepPath path ∈ s) := by
  induction archives generalizing s with
  | nil => simp [unlinkAll]
  | cons archive rest ih =>
    have hmarker : keepPath path ∈ unlink s archive ↔ keepPath path ∈ s :=
      keepPath_mem_unlink (harch archive List.mem_cons_self)
    have hrest := ih (s := unlink s archive) (fun a ha => harch a (List.mem_cons_of_mem _ ha))
    refine hrest.trans ?_
    rw [hmarker, mem_unlink, List.mem_cons]
    tauto

/-- Markers stay. -/
theorem keepPath_mem_unlinkAll (harch : ∀ archive ∈ archives, IsArchive archive) :
    keepPath path ∈ unlinkAll archives s ↔ keepPath path ∈ s := by
  rw [mem_unlinkAll harch]
  exact and_iff_left (fun hmem => absurd rfl ((harch _ hmem).ne_keepPath path))

end Unlink

variable {policies : PolicySnapshot} {level : Level} {policy : Policy}

section Exec
variable (node : Node) (lookups : Lookups)

/-! ### The archives of a level -/

/-- The filter lets the archive through. -/
def passesFilter (policies : PolicySnapshot) (level : Level) (s : FS) (archive : String) : Bool :=
  match recordedIdentity node.host s archive with
  | .error _ => false
  | .ok ref => !policies.excluded level ref

theorem passesFilter_iff :
    passesFilter node policies level s archive = true ↔ ∃ ref,
      recordedIdentity node.host s archive = .ok ref ∧ policies.excluded level ref = false := by
  unfold passesFilter
  cases recordedIdentity node.host s archive with
  | error err => simp
  | ok ref => simp

theorem exec_filterArchives (policies : PolicySnapshot) (level : Level) (archives : List String)
    (s : FS) : exec (answer node lookups) (filterArchives policies level archives) s
      = (archives.filter (passesFilter node policies level s), s) := by
  have hstep : ∀ kept archive,
      exec (answer node lookups) (filterArchive policies level kept archive) s
        = (if passesFilter node policies level s archive then kept ++ [archive] else kept, s) := by
    intro kept archive
    have hread : exec (answer node lookups) (Gc.readRef archive) s
        = (recordedIdentity node.host s archive, s) := rfl
    unfold filterArchive passesFilter
    rw [exec_bind, hread]
    cases recordedIdentity node.host s archive with
    | error err => rfl
    | ok ref => cases hex : policies.excluded level ref <;> simp [hex]
  have hfold : ∀ kept, exec (answer node lookups)
      (archives.foldlM (filterArchive policies level) kept) s
        = (kept ++ archives.filter (passesFilter node policies level s), s) := by
    induction archives with
    | nil => intro kept; simp
    | cons archive rest ih =>
      intro kept
      rw [List.foldlM_cons, exec_bind, hstep, ih, List.filter_cons]
      split_ifs <;> simp
  unfold filterArchives
  simpa using hfold []

/-- The archives the level is left with; none if the pattern is malformed. -/
def filtered (policies : PolicySnapshot) (details : CheckpointDetails) (level : Level) (s : FS) :
    List String :=
  ((Filepath.glob s.keys (levelPattern policies details level)).getD []).filter
    (passesFilter node policies level s)

theorem mem_filtered {details : CheckpointDetails} :
    archive ∈ filtered node policies details level s ↔
      Filepath.globValid (levelPattern policies details level) = true ∧ archive ∈ s ∧
      Filepath.globMatch (levelPattern policies details level) archive = true ∧
      passesFilter node policies level s archive = true := by
  unfold filtered
  rw [List.mem_filter]
  cases hglob : Filepath.glob s.keys (levelPattern policies details level) with
  | none =>
    have hinvalid : Filepath.globValid (levelPattern policies details level) ≠ true := by
      intro hvalid
      rw [Filepath.glob, if_pos hvalid] at hglob
      exact absurd hglob (by simp)
    simp [hinvalid]
  | some found =>
    have hvalid : Filepath.globValid (levelPattern policies details level) = true := by
      by_contra hno
      rw [Filepath.glob, if_neg hno] at hglob
      exact absurd hglob (by simp)
    rw [Option.getD_some, Filepath.mem_glob hglob, AList.mem_keys, and_assoc]
    simp [hvalid]

theorem isArchive_of_mem_filtered {details : CheckpointDetails}
    (h : archive ∈ filtered node policies details level s) : IsArchive archive :=
  tar_suffix_of_globMatch ((mem_filtered node).mp h).2.2.1

/-! ### The level -/

/-- The orphan path, as removals. -/
theorem exec_deleteOrphans (L : List String) (s : FS) :
    (exec (answer node lookups) (deleteOrphans L) s).2 = unlinkAll L s := by
  have hround : ∀ archive s,
      (exec (answer node lookups) (deleteOrphan archive) s).2 = unlink s archive := by
    intro archive s
    rw [deleteOrphan, exec_bind, exec_isCheckpointPinned]
    by_cases hkeep : keepPath archive ∈ s
    · have hno : ¬ (archive ∈ s ∧ keepPath archive ∉ s) := fun h => h.2 hkeep
      rw [decide_eq_true hkeep, unlink, if_neg hno]
      rfl
    · rw [decide_eq_false hkeep]
      exact exec_removeUnlessPinned node lookups archive s
  unfold deleteOrphans
  induction L generalizing s with
  | nil => rfl
  | cons archive rest ih =>
    rw [List.forM_eq_forM, List.forM_cons, exec_bind, hround]
    exact ih (unlink s archive)

/-- **The survivors of the orphan path** are the archives with a marker and all that is not
    on the list. -/
theorem mem_deleteOrphans {L : List String} (hL : ∀ archive ∈ L, IsArchive archive) :
    path ∈ (exec (answer node lookups) (deleteOrphans L) s).2
      ↔ path ∈ s ∧ (path ∈ L → keepPath path ∈ s) := by
  rw [exec_deleteOrphans]
  exact mem_unlinkAll hL

/-- Does the level take its archives for orphans? -/
def takenForOrphans (details : CheckpointDetails) (level : Level) (policy : Policy) (s : FS) :
    Bool :=
  (exec (answer node lookups) (orphaned details level policy) s).1

theorem levelOutcome_inactive (policies : PolicySnapshot) (details : CheckpointDetails)
    (level : Level) (hactive : policy.active = false) (s : FS) :
    levelOutcome node lookups policies details level policy s = (some (), s) := by
  unfold levelOutcome handleCheckpointsForLevel
  rw [hactive]
  rfl

theorem exec_handleFiltered (details : CheckpointDetails) (level : Level) (policy : Policy)
    (archives : List String) (s : FS) :
    exec (answer node lookups) (handleFiltered details level policy archives).run s
      = if takenForOrphans node lookups details level policy s then (some (), unlinkAll archives s)
        else exec (answer node lookups) (enforceLimits policy archives).run s := by
  unfold handleFiltered takenForOrphans
  rw [exec_bind_panic, exec_lift, exec_looks node lookups (partitionArchives_looks archives)]
  show exec _ (monadLift (orphaned details level policy) >>= _ : OptionT (Prog gcSig) Unit).run s
    = _
  rw [exec_bind_panic, exec_lift, exec_looks node lookups (orphaned_looks details level policy)]
  cases (exec (answer node lookups) (orphaned details level policy) s).1 with
  | false => rfl
  | true =>
    refine (exec_lift (deleteOrphans archives) s).trans ?_
    rw [exec_deleteOrphans]
    rfl

/-- A level, from the archives it is left with. -/
theorem levelOutcome_of_listed (policies : PolicySnapshot) (details : CheckpointDetails)
    (level : Level) (hactive : policy.active = true) {found : List String}
    (hglob : Filepath.glob s.keys (levelPattern policies details level) = some found) :
    levelOutcome node lookups policies details level policy s
      = exec (answer node lookups) (handleFiltered details level policy
          (filtered node policies details level s)).run s := by
  unfold levelOutcome handleCheckpointsForLevel filtered
  rw [if_pos hactive, exec_bind_panic, exec_lift, hglob]
  show exec _ (handleListed policies details level policy
    (Filepath.glob s.keys (levelPattern policies details level))).run s = _
  rw [hglob, handleListed, exec_bind_panic, exec_lift, exec_filterArchives]
  rfl

/-- A malformed pattern lists nothing, and the level returns. -/
theorem levelOutcome_of_malformed (policies : PolicySnapshot) (details : CheckpointDetails)
    (level : Level) (hactive : policy.active = true)
    (hglob : Filepath.glob s.keys (levelPattern policies details level) = none) :
    levelOutcome node lookups policies details level policy s = (some (), s) := by
  unfold levelOutcome handleCheckpointsForLevel
  rw [if_pos hactive, exec_bind_panic, exec_lift]
  show exec _ (handleListed policies details level policy
    (Filepath.glob s.keys (levelPattern policies details level))).run s = _
  rw [hglob]
  rfl

end Exec

end CheckpointRestore.Retention
