import CheckpointRestore.Lib.Ints
import CheckpointRestore.Retention.Ops

namespace CheckpointRestore.Retention

open Go Interaction Pinning Resource

/-!
# The retention level — `handleCheckpointsForLevel`

What the garbage collector does for one level: it lists the archives of the level's pattern,
drops those it cannot read or leaves to a more specific policy, and removes the rest as
orphans or, one after the other, for being too large, too many, or too large together.

* `handleCheckpointsForLevel` — the whole level, in the order of the source: `filterArchives`,
  `partitionArchives`, then `deleteOrphans`, or `measureArchive` for every archive,
  `rotateByCount` and `rotateBySize`;
* `Keeps` — an invariant that looking, sorting and removing archives of one list keep;
  `Keeps.wp_handleFiltered` says that all that follows the filter then keeps it.

A sort can panic, in the log line of its comparison; nothing recovers, so everything that calls
it stops there and the operator ends.  The other log lines, and the record of limits that pinned
archives make unreachable, which only suppresses log lines, are left out.
-/

/-! ### The archives of a level -/

/-- `isCheckpointPinned`, outside the lock. -/
def isCheckpointPinned (archive : String) : Prog gcSig Bool := do
  let info ← Gc.stat (keepPath archive)
  return info.isSome

/-- One round of the filter. -/
def filterArchive (policies : PolicySnapshot) (level : Level) (filtered : List String)
    (archive : String) : Prog gcSig (List String) := do
  match ← Gc.readRef archive with
  | .error _ => return filtered
  | .ok archiveDetails =>
    if policies.excluded level archiveDetails then return filtered
    else return filtered ++ [archive]

/-- `filteredArchives`: those with a readable identity and no more specific policy. -/
def filterArchives (policies : PolicySnapshot) (level : Level) (archives : List String) :
    Prog gcSig (List String) :=
  archives.foldlM (filterArchive policies level) []

/-- One round of `partitionArchives`. -/
def partitionArchive (parts : List String × List String) (archive : String) :
    Prog gcSig (List String × List String) := do
  if ← isCheckpointPinned archive then return (parts.1, parts.2 ++ [archive])
  else return (parts.1 ++ [archive], parts.2)

/-- `partitionArchives`: deletable and pinned. -/
def partitionArchives (archives : List String) : Prog gcSig (List String × List String) :=
  archives.foldlM partitionArchive ([], [])

/-! ### Orphans -/

/-- `resourceExistsInCluster`; the second component is the error. -/
def resourceExistsInCluster (details : CheckpointDetails) :
    Level → Prog gcSig (Bool × Option String)
  | .container => do
    match ← Gc.getPod details.ns details.pod with
    | .found containers => return (containers.contains details.container, none)
    | .notFound => return (false, none)
    | .failed err => return (false, some err)
  | .pod => do
    match ← Gc.getPod details.ns details.pod with
    | .found _ => return (true, none)
    | .notFound => return (false, none)
    | .failed err => return (false, some err)
  | .namespace => do
    match ← Gc.getNamespace details.ns with
    | .found _ => return (true, none)
    | .notFound => return (false, none)
    | .failed err => return (false, some err)

/-- Are the archives of the level taken for orphans?  The error of the lookup is only
    logged. -/
def orphaned (details : CheckpointDetails) (level : Level) (policy : Policy) :
    Prog gcSig Bool :=
  if policy.retainOrphan then return false
  else do
    let (exist, _) ← resourceExistsInCluster details level
    return !exist

/-- One round of the orphan path. -/
def deleteOrphan (archive : String) : Prog gcSig Unit := do
  if ← isCheckpointPinned archive then return ()
  else Gc.removeUnlessPinned archive

/-- The orphan path: every archive without a marker is removed. -/
def deleteOrphans (archives : List String) : Prog gcSig Unit := archives.forM deleteOrphan

/-! ### Limits -/

/-- What is counted over the archives of a level. -/
structure Tally where
  /-- `checkpointArchivesCounter` -/
  counter : ℤ
  totalSize : Quantity
  archiveSizes : AList (fun _ : String => ℤ)
  /-- `deletableCandidates` -/
  candidates : List String

/-- Count an archive's size. -/
def Tally.account (tally : Tally) (archive : String) (size : ℤ) : Tally :=
  { tally with
    totalSize := tally.totalSize.add (.new size)
    archiveSizes := tally.archiveSizes.insert archive size }

/-- One round of the size loop: an archive over the size limit is removed, or counted if it
    is pinned; every other is counted, and is a candidate unless it is pinned. -/
def measureArchive (policy : Policy) (tally : Tally) (archive : String) :
    Prog gcSig Tally := do
  match ← Gc.stat archive with
  | none => return tally
  | some info =>
    if policy.maxCheckpointSize.cmp (.new info.size) = .lt then
      if ← isCheckpointPinned archive then return tally.account archive info.size
      else
        Gc.removeUnlessPinned archive
        return { tally with counter := tally.counter - 1 }
    else
      let counted := tally.account archive info.size
      if ← isCheckpointPinned archive then return counted
      else return { counted with candidates := counted.candidates ++ [archive] }

/-- `RetentionPolicy`. -/
inductive RetentionPolicy where
  | byCount
  | bySize

/-- The oldest archives whose sizes make up the excess; the subtraction is on `int64`. -/
def takeBySize (archiveSizes : AList (fun _ : String => ℤ)) : List String → ℤ → List String
  | [], _ => []
  | archive :: rest, excess =>
    let left := wrap64 (excess - (archiveSizes.lookup archive).getD 0)
    if left ≤ 0 then [archive] else archive :: takeBySize archiveSizes rest left

/-- `selectArchivesToDelete`.  The slice it is given is sorted in place: the second component
    is the slice afterwards. -/
def selectArchivesToDelete (archives : List String) (archiveSizes : AList (fun _ : String => ℤ))
    (excess : ℤ) : RetentionPolicy → OptionT (Prog gcSig) (List String × List String)
  | .byCount => do
    let sorted ← Gc.sortSlice archives
    return (sorted.take excess.toNat, sorted)
  | .bySize => do
    let sorted ← Gc.sortSlice archives
    return (takeBySize archiveSizes sorted excess, sorted)

/-- Remove the selected archives until the count is within the limit. -/
def deleteByCount (maxCheckpoints : ℤ) : List String → ℤ → Prog gcSig ℤ
  | [], counter => return counter
  | archive :: rest, counter => do
    Gc.removeUnlessPinned archive
    if counter - 1 ≤ maxCheckpoints then return counter - 1
    else deleteByCount maxCheckpoints rest (counter - 1)

/-- The count path. -/
def rotateByCount (policy : Policy) (tally : Tally) : OptionT (Prog gcSig) Tally :=
  if policy.maxCheckpoints < tally.counter then do
    let (toDelete, candidates) ← selectArchivesToDelete tally.candidates tally.archiveSizes
      (tally.counter - policy.maxCheckpoints) .byCount
    let counter ← deleteByCount policy.maxCheckpoints toDelete tally.counter
    return { tally with counter := counter, candidates := candidates }
  else return tally

/-- Remove the selected archives until the total is within the limit. -/
def deleteBySize (maxTotalSize : Quantity) :
    List String → Quantity → AList (fun _ : String => ℤ) → Prog gcSig Quantity
  | [], totalSize, _ => return totalSize
  | archive :: rest, totalSize, archiveSizes => do
    Gc.removeUnlessPinned archive
    let left := totalSize.sub (.new ((archiveSizes.lookup archive).getD 0))
    if maxTotalSize.cmp left ≠ .lt then return left
    else deleteBySize maxTotalSize rest left (archiveSizes.erase archive)

/-- The size path.  The count path's removals are not taken off the total, nor out of the slice
    that is sorted again. -/
def rotateBySize (policy : Policy) (tally : Tally) : OptionT (Prog gcSig) Quantity :=
  if policy.maxTotalSize.cmp tally.totalSize = .lt then do
    let excessSize := tally.totalSize.sub policy.maxTotalSize
    let (toDelete, _) ← selectArchivesToDelete tally.candidates tally.archiveSizes
      excessSize.value .bySize
    deleteBySize policy.maxTotalSize toDelete tally.totalSize tally.archiveSizes
  else return tally.totalSize

/-- The oversize, count and size paths. -/
def enforceLimits (policy : Policy) (archives : List String) : OptionT (Prog gcSig) Unit := do
  let tally ← (archives.foldlM (measureArchive policy)
    { counter := archives.length, totalSize := .new 0, archiveSizes := ∅, candidates := [] } :
      Prog gcSig Tally)
  let tally ← rotateByCount policy tally
  let _ ← rotateBySize policy tally
  return ()

/-! ### The level -/

/-- The limits under which the level is handled at all. -/
def Policy.active (policy : Policy) : Bool :=
  decide (0 < policy.maxCheckpoints ∧ 0 < policy.maxCheckpointSize.value ∧
    0 < policy.maxTotalSize.value)

/-- `handleCheckpointsForLevel` once the archives are filtered. -/
def handleFiltered (details : CheckpointDetails) (level : Level) (policy : Policy)
    (filteredArchives : List String) : OptionT (Prog gcSig) Unit := do
  let _ ← partitionArchives filteredArchives
  if ← orphaned details level policy then deleteOrphans filteredArchives
  else enforceLimits policy filteredArchives

/-- `handleCheckpointsForLevel` once the archives are listed; nothing happens if they could
    not be. -/
def handleListed (policies : PolicySnapshot) (details : CheckpointDetails) (level : Level)
    (policy : Policy) : Option (List String) → OptionT (Prog gcSig) Unit
  | none => return ()
  | some checkpointArchives => do
    let filteredArchives ← filterArchives policies level checkpointArchives
    handleFiltered details level policy filteredArchives

/-- `handleCheckpointsForLevel`. -/
def handleCheckpointsForLevel (policies : PolicySnapshot) (details : CheckpointDetails)
    (level : Level) (policy : Policy) : OptionT (Prog gcSig) Unit := do
  if policy.active then
    let listed ← liftM (n := OptionT (Prog gcSig)) (Gc.glob (levelPattern policies details level))
    handleListed policies details level policy listed
  else return ()

/-! ### What the level keeps -/

/-- Operations that only look at files or at the cluster. -/
def GcOp.looks : gcSig.Op → Prop
  | .stat _ => True
  | .getPod _ _ => True
  | .getNamespace _ => True
  | _ => False

theorem isCheckpointPinned_looks (archive : String) :
    Issues GcOp.looks (isCheckpointPinned archive) :=
  Issues.bind (Issues.perform trivial) (fun _ => Issues.pure _)

theorem partitionArchives_looks (archives : List String) :
    Issues GcOp.looks (partitionArchives archives) := by
  refine Issues.foldlM (fun parts archive => ?_) _
  refine Issues.bind (isCheckpointPinned_looks archive) (fun pinned => ?_)
  cases pinned <;> exact Issues.pure _

theorem resourceExistsInCluster_looks (details : CheckpointDetails) (level : Level) :
    Issues GcOp.looks (resourceExistsInCluster details level) := by
  cases level with
  | container =>
    refine Issues.bind (Issues.perform trivial) (fun reply => ?_)
    cases reply <;> exact Issues.pure _
  | pod =>
    refine Issues.bind (Issues.perform trivial) (fun reply => ?_)
    cases reply <;> exact Issues.pure _
  | «namespace» =>
    refine Issues.bind (Issues.perform trivial) (fun reply => ?_)
    cases reply <;> exact Issues.pure _

theorem orphaned_looks (details : CheckpointDetails) (level : Level) (policy : Policy) :
    Issues GcOp.looks (orphaned details level policy) := by
  unfold orphaned
  split
  · exact Issues.pure _
  · exact Issues.bind (resourceExistsInCluster_looks details level) (fun _ => Issues.pure _)

/-- `I` is kept by looking, by sorting, which permutes or panics, and by removing archives of
    `L`. -/
structure Keeps {σ : Type} (C : Contract gcSig σ) (L : List String) (I : σ → Prop) : Prop where
  looks : ∀ op s, GcOp.looks op → I s → C.pre op s ∧ ∀ r s', C.post op s r s' → I s'
  sort : ∀ archives s, I s → C.pre (.sortSlice archives) s ∧
    ∀ (r : Option (List String)) s', C.post (.sortSlice archives) s r s' →
      (∀ sorted, r = some sorted → sorted.Perm archives) ∧ I s'
  remove : ∀ archive ∈ L, ∀ s, I s → C.pre (.removeUnlessPinned archive) s ∧
    ∀ r s', C.post (.removeUnlessPinned archive) s r s' → I s'

namespace Keeps

variable {σ : Type} {C : Contract gcSig σ} {L : List String} {I : σ → Prop} {s : σ}

theorem wp_looks {α : Type} (h : Keeps C L I) {p : Prog gcSig α} (hp : Issues GcOp.looks p)
    (hs : I s) : wp C p (fun _ => I) s :=
  wp_of_issues h.looks hp hs

theorem wp_remove (h : Keeps C L I) {archive : String} (ha : archive ∈ L) (hs : I s) :
    wp C (Gc.removeUnlessPinned archive) (fun _ => I) s :=
  h.remove archive ha s hs

variable {archives : List String}

/-- The orphan path. -/
theorem wp_deleteOrphans (h : Keeps C L I) (hl : archives ⊆ L) (hs : I s) :
    wp C (deleteOrphans archives) (fun _ => I) s := by
  refine wp_forM (fun s archive ha hs => ?_) hs
  unfold deleteOrphan
  rw [wp_bind]
  refine wp_mono (fun pinned s' hs' => ?_) (h.wp_looks (isCheckpointPinned_looks archive) hs)
  cases pinned with
  | true => exact hs'
  | false => exact h.wp_remove (hl ha) hs'

variable {tally : Tally}

/-- One round of the size loop; candidates come from the list. -/
theorem wp_measureArchive (h : Keeps C L I) (policy : Policy) {archive : String}
    (ha : archive ∈ L) (ht : tally.candidates ⊆ L) (hs : I s) :
    wp C (measureArchive policy tally archive) (fun t s' => I s' ∧ t.candidates ⊆ L) s := by
  have hpinned : ∀ s, I s → wp C (isCheckpointPinned archive) (fun _ => I) s :=
    fun s hs => h.wp_looks (isCheckpointPinned_looks archive) hs
  unfold measureArchive
  rw [wp_bind]
  refine wp_mono (fun info s' hs' => ?_)
    (h.wp_looks (p := Gc.stat archive) (Issues.perform trivial) hs)
  cases info with
  | none => exact ⟨hs', ht⟩
  | some info =>
    dsimp only
    split_ifs with hsize
    · rw [wp_bind]
      refine wp_mono (fun pinned s'' hs'' => ?_) (hpinned s' hs')
      cases pinned with
      | true => exact ⟨hs'', ht⟩
      | false =>
        show wp C (Gc.removeUnlessPinned archive >>= fun _ => _) _ s''
        rw [wp_bind]
        exact wp_mono (fun _ _ hI => ⟨hI, ht⟩) (h.wp_remove ha hs'')
    · rw [wp_bind]
      refine wp_mono (fun pinned s'' hs'' => ?_) (hpinned s' hs')
      cases pinned with
      | true => exact ⟨hs'', ht⟩
      | false => exact ⟨hs'', List.append_subset.mpr ⟨ht, by simpa using ha⟩⟩

theorem takeBySize_subset (archiveSizes : AList (fun _ : String => ℤ)) (archives : List String)
    (excess : ℤ) : takeBySize archiveSizes archives excess ⊆ archives := by
  induction archives generalizing excess with
  | nil => exact fun _ hx => hx
  | cons archive rest ih =>
    rw [takeBySize]
    split_ifs with hleft
    · simp
    · exact List.cons_subset_cons _ (ih _)

theorem wp_selectArchivesToDelete (h : Keeps C L I) (hl : archives ⊆ L)
    (archiveSizes : AList (fun _ : String => ℤ)) (excess : ℤ) (mode : RetentionPolicy) (hs : I s) :
    wp C (selectArchivesToDelete archives archiveSizes excess mode).run
      (fun r s' => I s' ∧ ∀ lists, r = some lists → lists.1 ⊆ L ∧ lists.2 ⊆ L) s := by
  obtain ⟨hpre, hpost⟩ := h.sort archives s hs
  -- a slice that came back is a permutation, and both lists are taken from it
  have hsort : wp C (Gc.sortSlice archives).run
      (fun r s' => I s' ∧ ∀ sorted, r = some sorted → sorted ⊆ L) s := by
    refine ⟨hpre, fun r s' hp => ?_⟩
    obtain ⟨hperm, hs'⟩ := hpost r s' hp
    exact ⟨hs', fun sorted heq x hx => hl ((hperm sorted heq).subset hx)⟩
  unfold selectArchivesToDelete
  cases mode with
  | byCount =>
    rw [wp_bind_panic]
    refine wp_mono (fun r s' hr => ?_) hsort
    cases r with
    | none => exact ⟨hr.1, fun lists hnone => absurd hnone (by simp)⟩
    | some sorted =>
      refine ⟨hr.1, fun lists hlists => ?_⟩
      cases hlists
      exact ⟨fun x hx => hr.2 sorted rfl (List.mem_of_mem_take hx), hr.2 sorted rfl⟩
  | bySize =>
    rw [wp_bind_panic]
    refine wp_mono (fun r s' hr => ?_) hsort
    cases r with
    | none => exact ⟨hr.1, fun lists hnone => absurd hnone (by simp)⟩
    | some sorted =>
      refine ⟨hr.1, fun lists hlists => ?_⟩
      cases hlists
      exact ⟨fun x hx => hr.2 sorted rfl (takeBySize_subset _ _ _ hx), hr.2 sorted rfl⟩

theorem wp_deleteByCount (h : Keeps C L I) (maxCheckpoints : ℤ) {toDelete : List String}
    (hl : toDelete ⊆ L) (counter : ℤ) (hs : I s) :
    wp C (deleteByCount maxCheckpoints toDelete counter) (fun _ => I) s := by
  induction toDelete generalizing counter s with
  | nil => exact hs
  | cons archive rest ih =>
    rw [deleteByCount, wp_bind]
    refine wp_mono (fun _ s' hs' => ?_) (h.wp_remove (hl List.mem_cons_self) hs)
    split_ifs with hdone
    · exact hs'
    · exact ih (fun x hx => hl (List.mem_cons_of_mem _ hx)) _ hs'

theorem wp_deleteBySize (h : Keeps C L I) (maxTotalSize : Quantity) {toDelete : List String}
    (hl : toDelete ⊆ L) (totalSize : Quantity) (archiveSizes : AList (fun _ : String => ℤ))
    (hs : I s) :
    wp C (deleteBySize maxTotalSize toDelete totalSize archiveSizes) (fun _ => I) s := by
  induction toDelete generalizing totalSize archiveSizes s with
  | nil => exact hs
  | cons archive rest ih =>
    rw [deleteBySize, wp_bind]
    refine wp_mono (fun _ s' hs' => ?_) (h.wp_remove (hl List.mem_cons_self) hs)
    dsimp only
    split_ifs with hdone
    · exact hs'
    · exact ih (fun x hx => hl (List.mem_cons_of_mem _ hx)) _ _ hs'

theorem wp_rotateByCount (h : Keeps C L I) (policy : Policy) (ht : tally.candidates ⊆ L)
    (hs : I s) :
    wp C (rotateByCount policy tally).run
      (fun r s' => I s' ∧ ∀ t, r = some t → t.candidates ⊆ L) s := by
  unfold rotateByCount
  split_ifs with hover
  · rw [wp_bind_panic]
    refine wp_mono (fun r s' hr => ?_)
      (h.wp_selectArchivesToDelete ht tally.archiveSizes _ .byCount hs)
    cases r with
    | none => exact ⟨hr.1, fun t hnone => absurd hnone (by simp)⟩
    | some lists =>
      obtain ⟨hdel, hcand⟩ := hr.2 lists rfl
      show wp C (monadLift _ >>= _ : OptionT (Prog gcSig) Tally).run _ s'
      rw [wp_bind_panic, wp_lift]
      refine wp_mono (fun counter s'' hs'' => ?_) (h.wp_deleteByCount _ hdel _ hr.1)
      refine ⟨hs'', fun t heq => ?_⟩
      cases heq
      exact hcand
  · refine ⟨hs, fun t heq => ?_⟩
    cases heq
    exact ht

theorem wp_rotateBySize (h : Keeps C L I) (policy : Policy) (ht : tally.candidates ⊆ L) (hs : I s) :
    wp C (rotateBySize policy tally).run (fun _ => I) s := by
  unfold rotateBySize
  split_ifs with hover
  · dsimp only
    rw [wp_bind_panic]
    refine wp_mono (fun r s' hr => ?_)
      (h.wp_selectArchivesToDelete ht tally.archiveSizes _ .bySize hs)
    cases r with
    | none => exact hr.1
    | some lists =>
      refine (wp_lift _ _ s').mpr ?_
      exact h.wp_deleteBySize _ (hr.2 lists rfl).1 _ _ hr.1
  · exact hs

/-- The oversize, count and size paths. -/
theorem wp_enforceLimits (h : Keeps C L I) (policy : Policy) (hl : archives ⊆ L) (hs : I s) :
    wp C (enforceLimits policy archives).run (fun _ => I) s := by
  unfold enforceLimits
  rw [wp_bind_panic, wp_lift]
  have hmeasure : wp C (archives.foldlM (measureArchive policy)
      { counter := archives.length, totalSize := .new 0, archiveSizes := ∅, candidates := [] })
      (fun t s' => I s' ∧ t.candidates ⊆ L) s :=
    wp_foldlM (fun tally s archive ha ⟨hs, ht⟩ => h.wp_measureArchive policy (hl ha) ht hs)
      ⟨hs, List.nil_subset _⟩
  refine wp_mono (fun tally s₁ ⟨hs₁, ht⟩ => ?_) hmeasure
  show wp C (rotateByCount policy tally >>= _).run _ s₁
  rw [wp_bind_panic]
  refine wp_mono (fun r s₂ hr => ?_) (h.wp_rotateByCount policy ht hs₁)
  cases r with
  | none => exact hr.1
  | some rotated =>
    show wp C (rotateBySize policy rotated >>= _).run _ s₂
    rw [wp_bind_panic]
    refine wp_mono (fun r s₃ hI => ?_) (h.wp_rotateBySize policy (hr.2 rotated rfl) hr.1)
    cases r <;> exact hI

/-- All that follows the filter. -/
theorem wp_handleFiltered (h : Keeps C L I) (details : CheckpointDetails) (level : Level)
    (policy : Policy) (hl : archives ⊆ L) (hs : I s) :
    wp C (handleFiltered details level policy archives).run (fun _ => I) s := by
  unfold handleFiltered
  rw [wp_bind_panic, wp_lift]
  refine wp_mono (fun _ s₁ hs₁ => ?_) (h.wp_looks (partitionArchives_looks archives) hs)
  show wp C (monadLift _ >>= _ : OptionT (Prog gcSig) Unit).run _ s₁
  rw [wp_bind_panic, wp_lift]
  refine wp_mono (fun orphan s₂ hs₂ => ?_) (h.wp_looks (orphaned_looks details level policy) hs₁)
  cases orphan with
  | true => exact (wp_lift _ _ s₂).mpr (h.wp_deleteOrphans hl hs₂)
  | false => exact h.wp_enforceLimits policy hl hs₂

end Keeps

end CheckpointRestore.Retention
