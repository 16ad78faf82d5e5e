import Mathlib.Algebra.Order.BigOperators.Group.List
import CheckpointRestore.Lib.QuantityOrder
import CheckpointRestore.Retention.Sequential

namespace CheckpointRestore.Retention

open Go Interaction Pinning Resource

/-!
# What the limits remove, as a list

With no other writer and no failures, the oversize, count and size paths are functions of the
archives they are given, of their sizes, ages and markers, and of the order the sort gives.

* `tooLarge`, `byCount`, `bySize` — the archives each path removes, in this order;
* `limitsPanic` — the second sort panics, and `limitsPanic_iff`: it does if the first has led to
  removals;
* `limitRemovals` — all removals, and `exec_enforceLimits`: executing the paths removes these;
* `limitRemovals_congr` — they only depend on what the directory says of the archives given.
-/

/-! ### Sizes and markers -/

/-- The size the level reads. -/
def archiveSize (s : FS) (archive : String) : ℤ := ((s.stat archive).map FileInfo.size).getD 0

/-- The size of the archives together. -/
def totalSize (s : FS) (archives : List String) : ℤ := (archives.map (archiveSize s)).sum

/-- A marker stands next to the archive. -/
def marked (s : FS) (archive : String) : Bool := decide (keepPath archive ∈ s)

/-- The archive is over the limit for a single one. -/
def oversize (policy : Policy) (s : FS) (archive : String) : Bool :=
  decide (policy.maxCheckpointSize.cmp (.new (archiveSize s archive)) = .lt)

/-- The archives of the oversize path. -/
def tooLarge (policy : Policy) (s : FS) (archives : List String) : List String :=
  archives.filter (fun archive => oversize policy s archive && !marked s archive)

/-- The archives that count against the limits. -/
def counted (policy : Policy) (s : FS) (archives : List String) : List String :=
  archives.filter (fun archive => !oversize policy s archive || marked s archive)

/-- `deletableCandidates`. -/
def candidates (policy : Policy) (s : FS) (archives : List String) : List String :=
  archives.filter (fun archive => !oversize policy s archive && !marked s archive)

theorem archiveSize_nonneg (s : FS) (archive : String) : 0 ≤ archiveSize s archive := by
  unfold archiveSize FS.stat
  cases s.lookup archive with
  | none => exact le_refl 0
  | some file => exact Int.natCast_nonneg _

theorem totalSize_nonneg (s : FS) (archives : List String) : 0 ≤ totalSize s archives := by
  refine List.sum_nonneg (fun size hsize => ?_)
  obtain ⟨archive, -, rfl⟩ := List.mem_map.mp hsize
  exact archiveSize_nonneg s archive

theorem totalSize_cons (s : FS) (archive : String) (rest : List String) :
    totalSize s (archive :: rest) = archiveSize s archive + totalSize s rest := List.sum_cons

variable {s : FS}

theorem totalSize_perm {xs ys : List String} (h : xs.Perm ys) :
    totalSize s xs = totalSize s ys := (h.map _).sum_eq

/-- Fewer archives are no larger. -/
theorem totalSize_le_of_sublist {xs ys : List String} (h : xs.Sublist ys) :
    totalSize s xs ≤ totalSize s ys := by
  induction h with
  | slnil => exact le_refl _
  | cons archive _ ih =>
    rw [totalSize_cons]
    have hsize := archiveSize_nonneg s archive
    omega
  | cons_cons archive _ ih =>
    rw [totalSize_cons, totalSize_cons]
    omega

variable {t : FS} {archive : String}

theorem archiveSize_of_lookup (h : s.lookup archive = t.lookup archive) :
    archiveSize s archive = archiveSize t archive := by
  unfold archiveSize FS.stat
  rw [h]

variable {archives : List String}

/-- Archives with a marker may be left out of the list. -/
theorem unlinkAll_unmarked (harch : ∀ archive ∈ archives, IsArchive archive) (s : FS) :
    unlinkAll archives s = unlinkAll (archives.filter (fun archive => !marked s archive)) s := by
  induction archives generalizing s with
  | nil => rfl
  | cons archive rest ih =>
    have hmarked : ∀ other, marked (unlink s archive) other = marked s other := fun other =>
      decide_eq_decide.mpr (keepPath_mem_unlink (harch archive List.mem_cons_self))
    have hrest := ih (fun a ha => harch a (List.mem_cons_of_mem _ ha)) (unlink s archive)
    simp only [hmarked] at hrest
    refine hrest.trans ?_
    rw [List.filter_cons]
    split_ifs with hmark
    · rfl
    · -- the marker holds the archive
      have hkeep : keepPath archive ∈ s := by simpa [marked] using hmark
      rw [unlink, if_neg (fun h => h.2 hkeep)]

/-! ### Measuring -/

/-- `archiveSizes` after the archives were measured. -/
def sizesOf (s : FS) (archives : List String) (sizes : AList (fun _ : String => ℤ)) :
    AList (fun _ : String => ℤ) :=
  archives.foldl (fun sizes archive => sizes.insert archive (archiveSize s archive)) sizes

/-- The total after the archives were measured. -/
def addSizes (s : FS) (archives : List String) (total : Quantity) : Quantity :=
  archives.foldl (fun total archive => total.add (.new (archiveSize s archive))) total

/-- The sum is exact as long as it fits. -/
theorem addSizes_new {total : ℤ} (htotal : 0 ≤ total)
    (hfits : total + totalSize s archives < 2 ^ 63) :
    addSizes s archives (.new total) = .new (total + totalSize s archives) := by
  induction archives generalizing total with
  | nil => simp [addSizes, totalSize]
  | cons archive rest ih =>
    rw [totalSize_cons] at hfits ⊢
    have hsize := archiveSize_nonneg s archive
    have hrest := totalSize_nonneg s rest
    have hadd := Quantity.add_new htotal hsize (by omega)
    show addSizes s rest ((Quantity.new total).add _) = _
    rw [hadd, ih (by omega) (by omega), add_assoc]

variable {sizes : AList (fun _ : String => ℤ)}

theorem lookup_sizesOf_of_notMem (h : archive ∉ archives) :
    (sizesOf s archives sizes).lookup archive = sizes.lookup archive := by
  induction archives generalizing sizes with
  | nil => rfl
  | cons first rest ih =>
    rw [List.mem_cons, not_or] at h
    exact (ih h.2).trans (AList.lookup_insert_ne h.1)

/-- Every archive has its size in the table. -/
theorem lookup_sizesOf (h : archive ∈ archives) :
    (sizesOf s archives sizes).lookup archive = some (archiveSize s archive) := by
  induction archives generalizing sizes with
  | nil => exact absurd h List.not_mem_nil
  | cons first rest ih =>
    by_cases hrest : archive ∈ rest
    · exact ih hrest
    · have hfirst : archive = first := (List.mem_cons.mp h).resolve_right hrest
      subst hfirst
      exact (lookup_sizesOf_of_notMem hrest).trans (AList.lookup_insert _)

/-- What is counted once the archives were measured, from `tally` on. -/
def measured (policy : Policy) (s : FS) (archives : List String) (tally : Tally) : Tally where
  counter := tally.counter - (tooLarge policy s archives).length
  totalSize := addSizes s (counted policy s archives) tally.totalSize
  archiveSizes := sizesOf s (counted policy s archives) tally.archiveSizes
  candidates := tally.candidates ++ candidates policy s archives

theorem tooLarge_append (policy : Policy) (s : FS) (xs ys : List String) :
    tooLarge policy s (xs ++ ys) = tooLarge policy s xs ++ tooLarge policy s ys :=
  List.filter_append ..

theorem measured_append (policy : Policy) (s : FS) (xs ys : List String) (tally : Tally) :
    measured policy s (xs ++ ys) tally = measured policy s ys (measured policy s xs tally) := by
  have hcounted : counted policy s (xs ++ ys) = counted policy s xs ++ counted policy s ys :=
    List.filter_append ..
  have hcandidates : candidates policy s (xs ++ ys)
      = candidates policy s xs ++ candidates policy s ys := List.filter_append ..
  unfold measured addSizes sizesOf
  rw [hcounted, hcandidates, tooLarge_append, List.foldl_append, List.foldl_append,
    List.append_assoc, List.length_append, Nat.cast_add, sub_sub]

/-! ### What the paths look at -/

/-- The directories say the same of the archives. -/
def Agree (archives : List String) (s t : FS) : Prop :=
  ∀ archive ∈ archives, s.lookup archive = t.lookup archive ∧
    (keepPath archive ∈ s ↔ keepPath archive ∈ t)

variable {policy : Policy}

section Agree
variable {archives : List String} {s t : FS} (h : Agree archives s t)
include h

theorem Agree.subset {others : List String} (hsub : others ⊆ archives) : Agree others s t :=
  fun archive ha => h archive (hsub ha)

/-- What is read of the archives is the same in both directories. -/
theorem Agree.archiveSize (ha : archive ∈ archives) :
    archiveSize s archive = archiveSize t archive := archiveSize_of_lookup (h archive ha).1

theorem Agree.marked (ha : archive ∈ archives) : marked s archive = marked t archive := by
  unfold Retention.marked
  exact decide_eq_decide.mpr (h archive ha).2

theorem Agree.oversize (ha : archive ∈ archives) :
    oversize policy s archive = oversize policy t archive := by
  unfold Retention.oversize
  rw [h.archiveSize ha]

theorem Agree.tooLarge (policy : Policy) :
    tooLarge policy s archives = tooLarge policy t archives :=
  List.filter_congr (fun archive ha => by rw [h.oversize ha, h.marked ha])

theorem Agree.counted (policy : Policy) : counted policy s archives = counted policy t archives :=
  List.filter_congr (fun archive ha => by rw [h.oversize ha, h.marked ha])

theorem Agree.candidates (policy : Policy) :
    candidates policy s archives = candidates policy t archives :=
  List.filter_congr (fun archive ha => by rw [h.oversize ha, h.marked ha])

theorem Agree.totalSize : totalSize s archives = totalSize t archives := by
  unfold Retention.totalSize
  rw [List.map_congr_left (fun archive ha => h.archiveSize ha)]

theorem Agree.sizesOf (sizes : AList (fun _ : String => ℤ)) :
    sizesOf s archives sizes = sizesOf t archives sizes :=
  List.foldl_ext _ _ sizes (fun _ archive ha => by rw [h.archiveSize ha])

theorem Agree.addSizes (total : Quantity) : addSizes s archives total = addSizes t archives total :=
  List.foldl_ext _ _ total (fun _ archive ha => by rw [h.archiveSize ha])

theorem Agree.measured (policy : Policy) (tally : Tally) :
    measured policy s archives tally = measured policy t archives tally := by
  have hcounted : Agree (Retention.counted policy s archives) s t :=
    h.subset (List.filter_subset_self _)
  unfold Retention.measured
  rw [hcounted.addSizes, hcounted.sizesOf, h.tooLarge, h.counted, h.candidates]

end Agree

/-- A removal changes nothing of the other archives. -/
theorem agree_unlink (harch : IsArchive archive) (hout : archive ∉ archives) (s : FS) :
    Agree archives (unlink s archive) s := by
  intro other hother
  have hne : other ≠ archive := fun heq => hout (heq ▸ hother)
  refine ⟨?_, keepPath_mem_unlink harch⟩
  unfold unlink
  split_ifs with hgone
  · exact AList.lookup_erase_ne hne
  · rfl

/-- The same removals keep the directories in agreement. -/
theorem Agree.unlinkAll (h : Agree archives s t) {removed : List String}
    (harch : ∀ archive ∈ removed, IsArchive archive) :
    Agree archives (unlinkAll removed s) (unlinkAll removed t) := by
  induction removed generalizing s t with
  | nil => exact h
  | cons archive rest ih =>
    refine ih (fun other hother => ?_) (fun a ha => harch a (List.mem_cons_of_mem _ ha))
    obtain ⟨hlookup, hmarker⟩ := h other hother
    have harchive := harch archive List.mem_cons_self
    rw [keepPath_mem_unlink harchive, keepPath_mem_unlink harchive]
    refine ⟨?_, hmarker⟩
    by_cases heq : other = archive
    · -- the archive itself is unlinked in both or in neither
      subst heq
      have hmem : other ∈ s ↔ other ∈ t := by
        rw [← AList.lookup_isSome, ← AList.lookup_isSome, hlookup]
      have hboth : (other ∈ s ∧ keepPath other ∉ s) ↔ (other ∈ t ∧ keepPath other ∉ t) :=
        and_congr hmem (not_congr hmarker)
      unfold unlink
      by_cases hgone : other ∈ s ∧ keepPath other ∉ s
      · rw [if_pos hgone, if_pos (hboth.mp hgone), AList.lookup_erase, AList.lookup_erase]
      · rw [if_neg hgone, if_neg (fun h => hgone (hboth.mpr h)), hlookup]
    · have hother : Agree [other] (unlink s archive) s :=
        agree_unlink harchive (by simpa using Ne.symm heq) s
      have hother' : Agree [other] (unlink t archive) t :=
        agree_unlink harchive (by simpa using Ne.symm heq) t
      rw [(hother other (by simp)).1, (hother' other (by simp)).1, hlookup]

variable {toDelete : List String}

section Exec
variable (node : Node) (lookups : Lookups)

/-- One round of the size loop. -/
theorem exec_measureArchive (policy : Policy) (tally : Tally) (hin : archive ∈ s) :
    exec (answer node lookups) (measureArchive policy tally archive) s
      = (measured policy s [archive] tally, unlinkAll (tooLarge policy s [archive]) s) := by
  have hstat : exec (answer node lookups) (Gc.stat archive) s = (s.stat archive, s) := rfl
  obtain ⟨info, hinfo⟩ := Option.isSome_iff_exists.mp (FS.stat_isSome.mpr hin)
  have hsize : archiveSize s archive = info.size := by simp [archiveSize, hinfo]
  unfold measureArchive
  rw [exec_bind, hstat, hinfo]
  -- the comparison with the limit decides which of the two paths the loop takes
  cases hover : oversize policy s archive with
  | false =>
    have hlimit : ¬ policy.maxCheckpointSize.cmp (.new info.size) = .lt := by
      rw [← hsize]
      exact of_decide_eq_false hover
    dsimp only
    rw [if_neg hlimit, exec_bind, exec_isCheckpointPinned]
    by_cases hkeep : keepPath archive ∈ s <;>
      simp [hkeep, hover, measured, tooLarge, counted, candidates, marked, addSizes, sizesOf,
        unlinkAll, Tally.account, hsize]
  | true =>
    have hlimit : policy.maxCheckpointSize.cmp (.new info.size) = .lt := by
      rw [← hsize]
      exact of_decide_eq_true hover
    dsimp only
    rw [if_pos hlimit, exec_bind, exec_isCheckpointPinned]
    by_cases hkeep : keepPath archive ∈ s
    · simp [hkeep, hover, measured, tooLarge, counted, candidates, marked, addSizes, sizesOf,
        unlinkAll, Tally.account, hsize]
    · rw [decide_eq_false hkeep]
      show ((_, (exec (answer node lookups) (Gc.removeUnlessPinned archive) s).2) : Tally × FS) = _
      rw [exec_removeUnlessPinned]
      simp [hkeep, hover, measured, tooLarge, counted, candidates, marked, addSizes, sizesOf,
        unlinkAll, unlink]

/-- The size loop. -/
theorem exec_measure (policy : Policy) (hnodup : archives.Nodup)
    (harch : ∀ archive ∈ archives, IsArchive archive) (hin : ∀ archive ∈ archives, archive ∈ s)
    (tally : Tally) :
    exec (answer node lookups) (archives.foldlM (measureArchive policy) tally) s
      = (measured policy s archives tally, unlinkAll (tooLarge policy s archives) s) := by
  induction archives generalizing s tally with
  | nil => simp [measured, tooLarge, counted, candidates, addSizes, sizesOf, unlinkAll]
  | cons archive rest ih =>
    obtain ⟨hout, hrest⟩ := List.nodup_cons.mp hnodup
    have hone := exec_measureArchive node lookups policy tally (hin archive List.mem_cons_self)
    set s' := unlinkAll (tooLarge policy s [archive]) s with hs'
    -- removing one archive leaves the others as they are, so the rest is measured as before
    have hagree : Agree rest s' s := by
      have hlarge : tooLarge policy s [archive] = [archive] ∨ tooLarge policy s [archive] = [] := by
        unfold tooLarge
        rw [List.filter_cons]
        split_ifs <;> simp
      rcases hlarge with hlarge | hlarge
      · rw [hs', hlarge]
        exact agree_unlink (harch archive List.mem_cons_self) hout s
      · rw [hs', hlarge]
        exact fun other _ => ⟨rfl, Iff.rfl⟩
    have hin' : ∀ other ∈ rest, other ∈ s' := by
      intro other hother
      rw [← AList.lookup_isSome, (hagree other hother).1, AList.lookup_isSome]
      exact hin other (List.mem_cons_of_mem _ hother)
    have hih := ih hrest (fun a ha => harch a (List.mem_cons_of_mem _ ha)) hin'
      (measured policy s [archive] tally)
    rw [List.foldlM_cons, exec_bind, hone]
    refine hih.trans ?_
    rw [hagree.measured, hagree.tooLarge, hs', ← unlinkAll_append, ← tooLarge_append,
      ← measured_append]
    rfl

/-! ### Rotating -/

/-- `deleteByCount` removes all of a list no longer than the excess. -/
theorem exec_deleteByCount (maxCheckpoints : ℤ) {counter : ℤ}
    (hlength : (toDelete.length : ℤ) ≤ counter - maxCheckpoints) (s : FS) :
    (exec (answer node lookups) (deleteByCount maxCheckpoints toDelete counter) s).2
      = unlinkAll toDelete s := by
  induction toDelete generalizing counter s with
  | nil => rfl
  | cons archive rest ih =>
    rw [List.length_cons, Nat.cast_succ] at hlength
    rw [deleteByCount, exec_bind, exec_removeUnlessPinned]
    show (exec _ _ (unlink s archive)).2 = unlinkAll rest (unlink s archive)
    split_ifs with hdone
    · -- the limit is reached with the last archive of the list
      have hrest : rest = [] := List.length_eq_zero_iff.mp (by omega)
      rw [hrest]
      rfl
    · exact ih (by omega) (unlink s archive)

/-- The archives `deleteBySize` gets to. -/
def deletedBySize (maxTotalSize : Quantity) (size : String → ℤ) :
    List String → Quantity → List String
  | [], _ => []
  | archive :: rest, total =>
    let left := total.sub (.new (size archive))
    if maxTotalSize.cmp left ≠ .lt then [archive]
    else archive :: deletedBySize maxTotalSize size rest left

/-- The loop removes what `deletedBySize` says. -/
theorem exec_deleteBySize (maxTotalSize : Quantity) (hnodup : toDelete.Nodup) (total : Quantity)
    (hsizes : ∀ archive ∈ toDelete, sizes.lookup archive = some (archiveSize t archive)) (s : FS) :
    (exec (answer node lookups) (deleteBySize maxTotalSize toDelete total sizes) s).2
      = unlinkAll (deletedBySize maxTotalSize (archiveSize t) toDelete total) s := by
  induction toDelete generalizing total sizes s with
  | nil => rfl
  | cons archive rest ih =>
    obtain ⟨hout, hrest⟩ := List.nodup_cons.mp hnodup
    have hsize : (sizes.lookup archive).getD 0 = archiveSize t archive := by
      rw [hsizes archive List.mem_cons_self, Option.getD_some]
    have hsizes' : ∀ other ∈ rest,
        (sizes.erase archive).lookup other = some (archiveSize t other) := by
      intro other hother
      have hne : other ≠ archive := fun heq => hout (heq ▸ hother)
      rw [AList.lookup_erase_ne hne]
      exact hsizes other (List.mem_cons_of_mem _ hother)
    rw [deleteBySize, exec_bind, exec_removeUnlessPinned, hsize, deletedBySize]
    show (exec _ (if maxTotalSize.cmp (total.sub (.new (archiveSize t archive))) ≠ .lt then _
      else deleteBySize maxTotalSize rest _ _) (unlink s archive)).2 = _
    by_cases hdone : maxTotalSize.cmp (total.sub (.new (archiveSize t archive))) ≠ .lt
    · rw [if_pos hdone, if_pos hdone]
      rfl
    · rw [if_neg hdone, if_neg hdone]
      exact ih hrest _ hsizes' (unlink s archive)

/-- What the count path removes, and the slice it leaves to the size path. -/
def byCount (policy : Policy) (archives : List String) (s : FS) : List String × List String :=
  if policy.maxCheckpoints < (counted policy s archives).length then
    let sorted := node.sort (modTimeBefore (unlinkAll (tooLarge policy s archives) s))
      (candidates policy s archives)
    (sorted.take ((counted policy s archives).length - policy.maxCheckpoints).toNat, sorted)
  else ([], candidates policy s archives)

/-- The total the size path compares with its limit. -/
def countedTotal (policy : Policy) (archives : List String) (s : FS) : Quantity :=
  addSizes s (counted policy s archives) (.new 0)

/-- The sort of the size path; it sees the directory the count path leaves. -/
def secondSort (policy : Policy) (archives : List String) (s : FS) : Option (List String) :=
  node.sortByTime (unlinkAll (tooLarge policy s archives ++ (byCount node policy archives s).1) s)
    (byCount node policy archives s).2

/-- What the size path removes from the slice it has sorted. -/
def rotated (policy : Policy) (archives : List String) (s : FS) (sorted : List String) :
    List String :=
  deletedBySize policy.maxTotalSize (archiveSize s)
    (takeBySize (sizesOf s (counted policy s archives) ∅) sorted
      ((countedTotal policy archives s).sub policy.maxTotalSize).value)
    (countedTotal policy archives s)

/-- What the size path removes; nothing if its sort panics. -/
def bySize (policy : Policy) (archives : List String) (s : FS) : List String :=
  if policy.maxTotalSize.cmp (countedTotal policy archives s) = .lt then
    (secondSort node policy archives s).elim [] (rotated policy archives s)
  else []

/-- The size path is entered, and its sort panics. -/
def limitsPanic (policy : Policy) (archives : List String) (s : FS) : Bool :=
  decide (policy.maxTotalSize.cmp (countedTotal policy archives s) = .lt) &&
    (secondSort node policy archives s).isNone

/-- What the limits remove. -/
def limitRemovals (policy : Policy) (archives : List String) (s : FS) : List String :=
  tooLarge policy s archives ++ (byCount node policy archives s).1 ++ bySize node policy archives s

theorem length_counted (policy : Policy) (s : FS) (archives : List String) :
    ((counted policy s archives).length : ℤ)
      = archives.length - (tooLarge policy s archives).length := by
  have hsum := List.length_eq_length_filter_add (l := archives)
    (fun archive => oversize policy s archive && !marked s archive)
  have hcounted : counted policy s archives
      = archives.filter (fun archive => !(oversize policy s archive && !marked s archive)) :=
    List.filter_congr (fun archive _ => by simp)
  rw [hcounted]
  unfold tooLarge
  omega

theorem takeBySize_sublist (sizes : AList (fun _ : String => ℤ)) (archives : List String)
    (excess : ℤ) : (takeBySize sizes archives excess).Sublist archives := by
  induction archives generalizing excess with
  | nil => exact List.Sublist.refl []
  | cons archive rest ih =>
    unfold takeBySize
    dsimp only
    split_ifs
    · exact (List.nil_sublist rest).cons_cons archive
    · exact (ih _).cons_cons archive

theorem candidates_subset_counted :
    (candidates policy s archives).Sublist (counted policy s archives) :=
  List.monotone_filter_right archives (fun archive h => by simp_all)

/-- The count path leaves a reordering of the candidates. -/
theorem byCount_perm (policy : Policy) (archives : List String) (s : FS) :
    (byCount node policy archives s).2.Perm (candidates policy s archives) := by
  unfold byCount
  split_ifs
  · exact node.sort_perm _ _
  · exact List.Perm.refl _

/-- Candidates survive the oversize path. -/
theorem mem_unlinkAll_tooLarge (harch : ∀ archive ∈ archives, IsArchive archive)
    (hin : ∀ archive ∈ archives, archive ∈ s) (ha : archive ∈ candidates policy s archives) :
    archive ∈ unlinkAll (tooLarge policy s archives) s := by
  obtain ⟨hmem, hcond⟩ := List.mem_filter.mp ha
  have hlarge : ∀ a ∈ tooLarge policy s archives, IsArchive a :=
    fun a h => harch a (List.filter_subset_self _ h)
  rw [mem_unlinkAll hlarge]
  refine ⟨hin archive hmem, fun hlarge => ?_⟩
  have hover := (List.mem_filter.mp hlarge).2
  simp only [Bool.and_eq_true, Bool.not_eq_true'] at hcond hover
  rw [hcond.1] at hover
  exact absurd hover.1 Bool.false_ne_true

/-- With every archive there the comparison does not panic. -/
theorem sortByTime_of_mem (h : ∀ archive ∈ archives, archive ∈ s) :
    node.sortByTime s archives = some (node.sort (modTimeBefore s) archives) := by
  refine if_neg (fun hpanics => ?_)
  simp only [comparisonPanics, Bool.and_eq_true, List.any_eq_true] at hpanics
  obtain ⟨-, archive, ha, hnone⟩ := hpanics
  have hsome := FS.stat_isSome.mpr (h archive ha)
  rw [← Option.not_isNone, hnone] at hsome
  exact absurd hsome (by simp)

/-- The count path, executed. -/
theorem exec_rotateByCount (policy : Policy) (harch : ∀ archive ∈ archives, IsArchive archive)
    (hin : ∀ archive ∈ archives, archive ∈ s) {tally : Tally}
    (hcounter : tally.counter = (counted policy s archives).length)
    (hcandidates : tally.candidates = candidates policy s archives) :
    ∃ counter, exec (answer node lookups) (rotateByCount policy tally).run
        (unlinkAll (tooLarge policy s archives) s)
      = (some { tally with counter := counter, candidates := (byCount node policy archives s).2 },
          unlinkAll (byCount node policy archives s).1
            (unlinkAll (tooLarge policy s archives) s)) := by
  unfold rotateByCount byCount
  rw [← hcounter, ← hcandidates]
  split_ifs with hover
  · set left := unlinkAll (tooLarge policy s archives) s
    set sorted := node.sort (modTimeBefore left) tally.candidates with hsorted
    set toDelete := sorted.take (tally.counter - policy.maxCheckpoints).toNat with htoDelete
    -- `deleteByCount` would stop early only at a longer list
    have hlength : (toDelete.length : ℤ) ≤ tally.counter - policy.maxCheckpoints := by
      rw [htoDelete, List.length_take]
      omega
    have hdelete := exec_deleteByCount node lookups policy.maxCheckpoints hlength left
    refine ⟨(exec (answer node lookups)
      (deleteByCount policy.maxCheckpoints toDelete tally.counter) left).1, ?_⟩
    have hthere : ∀ archive ∈ tally.candidates, archive ∈ left :=
      fun archive ha => mem_unlinkAll_tooLarge harch hin (hcandidates ▸ ha)
    have hselect : exec (answer node lookups) (selectArchivesToDelete tally.candidates
        tally.archiveSizes (tally.counter - policy.maxCheckpoints) .byCount).run left
          = (some (toDelete, sorted), left) := by
      have hsort : exec (answer node lookups) (Gc.sortSlice tally.candidates).run left
          = (some sorted, left) := Prod.ext (sortByTime_of_mem node hthere) rfl
      rw [selectArchivesToDelete, exec_bind_panic, hsort]
      rfl
    rw [exec_bind_panic, hselect]
    show exec _ (monadLift (deleteByCount policy.maxCheckpoints toDelete tally.counter) >>= _ :
      OptionT (Prog gcSig) Tally).run left = _
    rw [exec_bind_panic, exec_lift, hdelete]
    rfl
  · exact ⟨tally.counter, rfl⟩

/-- The size path, executed. -/
theorem exec_rotateBySize (policy : Policy) (hnodup : archives.Nodup) (tally : Tally)
    (htotal : tally.totalSize = countedTotal policy archives s)
    (hsizes : tally.archiveSizes = sizesOf s (counted policy s archives) ∅)
    (hcandidates : tally.candidates = (byCount node policy archives s).2) :
    ∃ total, exec (answer node lookups) (rotateBySize policy tally).run
        (unlinkAll (tooLarge policy s archives ++ (byCount node policy archives s).1) s)
      = (if limitsPanic node policy archives s then none else some total,
        unlinkAll (bySize node policy archives s)
          (unlinkAll (tooLarge policy s archives ++ (byCount node policy archives s).1) s)) := by
  unfold rotateBySize limitsPanic bySize
  rw [htotal, hsizes, hcandidates]
  by_cases hover : policy.maxTotalSize.cmp (countedTotal policy archives s) = .lt
  · rw [if_pos hover, if_pos hover, decide_eq_true hover, Bool.true_and]
    set left := unlinkAll (tooLarge policy s archives ++ (byCount node policy archives s).1) s
    set sizes := sizesOf s (counted policy s archives) ∅
    have hsort : exec (answer node lookups)
        (Gc.sortSlice (byCount node policy archives s).2).run left
          = (secondSort node policy archives s, left) := rfl
    dsimp only
    rw [exec_bind_panic, selectArchivesToDelete, exec_bind_panic, hsort]
    cases hsecond : secondSort node policy archives s with
    | none => exact ⟨.new 0, rfl⟩
    | some sorted =>
      set toDelete := takeBySize sizes sorted
        ((countedTotal policy archives s).sub policy.maxTotalSize).value
      have hsub : toDelete.Sublist sorted := takeBySize_sublist _ _ _
      have hperm : sorted.Perm (candidates policy s archives) :=
        (Node.sortByTime_perm hsecond).trans (byCount_perm node policy archives s)
      have hnodup' : toDelete.Nodup := hsub.nodup (hperm.nodup_iff.mpr (hnodup.filter _))
      have hlookup : ∀ archive ∈ toDelete, sizes.lookup archive = some (archiveSize s archive) :=
        fun archive ha =>
          lookup_sizesOf (candidates_subset_counted.subset (hperm.subset (hsub.subset ha)))
      have hdelete := exec_deleteBySize node lookups policy.maxTotalSize hnodup'
        (countedTotal policy archives s) hlookup left
      set deletion := deleteBySize policy.maxTotalSize toDelete (countedTotal policy archives s)
        sizes
      refine ⟨(exec (answer node lookups) deletion left).1, ?_⟩
      show exec (answer node lookups) (monadLift deletion : OptionT (Prog gcSig) Quantity).run left
        = _
      rw [exec_lift, hdelete]
      rfl
  · rw [if_neg hover, if_neg hover, decide_eq_false hover]
    exact ⟨_, rfl⟩

/-- **The limits, as removals.** -/
theorem exec_enforceLimits (policy : Policy) (hnodup : archives.Nodup)
    (harch : ∀ archive ∈ archives, IsArchive archive) (hin : ∀ archive ∈ archives, archive ∈ s) :
    exec (answer node lookups) (enforceLimits policy archives).run s
      = (if limitsPanic node policy archives s then none else some (),
        unlinkAll (limitRemovals node policy archives s) s) := by
  set start : Tally :=
    { counter := archives.length, totalSize := .new 0, archiveSizes := ∅, candidates := [] }
    with hstart
  have hmeasure := exec_measure node lookups policy hnodup harch hin start
  have hcounter : (measured policy s archives start).counter = (counted policy s archives).length :=
    (length_counted policy s archives).symm
  obtain ⟨counter, hcount⟩ := exec_rotateByCount node lookups policy harch hin hcounter rfl
  rw [← unlinkAll_append] at hcount
  obtain ⟨total, hsize⟩ := exec_rotateBySize node lookups policy hnodup
    { measured policy s archives start with
      counter := counter, candidates := (byCount node policy archives s).2 } rfl rfl rfl
  unfold enforceLimits limitRemovals
  rw [unlinkAll_append, exec_bind_panic, exec_lift, ← hstart, hmeasure]
  show exec _ (rotateByCount policy (measured policy s archives start) >>= _).run _ = _
  rw [exec_bind_panic, hcount]
  show exec _ (rotateBySize policy _ >>= _).run _ = _
  rw [exec_bind_panic, hsize]
  cases limitsPanic node policy archives s <;> rfl

/-! ### What is removed -/

/-- The size path removes from the front. -/
theorem deletedBySize_initial (maxTotalSize : Quantity) (size : String → ℤ) (toDelete : List String)
    (total : Quantity) : deletedBySize maxTotalSize size toDelete total <+: toDelete := by
  induction toDelete generalizing total with
  | nil => exact List.prefix_refl []
  | cons archive rest ih =>
    unfold deletedBySize
    dsimp only
    split_ifs
    · exact ⟨rest, rfl⟩
    · exact (List.prefix_cons_inj archive).mpr (ih _)

theorem byCount_sublist (policy : Policy) (archives : List String) (s : FS) :
    (byCount node policy archives s).1.Sublist (byCount node policy archives s).2 := by
  unfold byCount
  split_ifs
  · exact List.take_sublist _ _
  · exact List.nil_sublist _

theorem bySize_subset (policy : Policy) (archives : List String) (s : FS) :
    bySize node policy archives s ⊆ candidates policy s archives := by
  unfold bySize
  split_ifs
  · cases hsecond : secondSort node policy archives s with
    | none => exact List.nil_subset _
    | some sorted =>
      intro archive ha
      have hsorted := (takeBySize_sublist _ _ _).subset
        ((deletedBySize_initial _ _ _ _).subset ha)
      exact (byCount_perm node policy archives s).subset
        ((Node.sortByTime_perm hsecond).subset hsorted)
  · exact List.nil_subset _

/-- The limits remove archives they are given, and none with a marker. -/
theorem mem_limitRemovals (h : archive ∈ limitRemovals node policy archives s) :
    archive ∈ archives ∧ marked s archive = false := by
  have hcandidate : ∀ archive ∈ candidates policy s archives,
      archive ∈ archives ∧ marked s archive = false := by
    intro archive ha
    obtain ⟨hin, hcond⟩ := List.mem_filter.mp ha
    exact ⟨hin, by simp_all⟩
  unfold limitRemovals at h
  rcases List.mem_append.mp h with h | hsize
  · rcases List.mem_append.mp h with hlarge | hcount
    · obtain ⟨hin, hcond⟩ := List.mem_filter.mp hlarge
      exact ⟨hin, by simp_all⟩
    · exact hcandidate archive ((byCount_perm node policy archives s).subset
        ((byCount_sublist node policy archives s).subset hcount))
  · exact hcandidate archive (bySize_subset node policy archives s hsize)

/-! ### What the removals depend on -/

/-- `sort.Slice` compares elements of the slice only. -/
def LocalSort (node : Node) : Prop :=
  ∀ less less' archives, (∀ a ∈ archives, ∀ b ∈ archives, less a b = less' a b) →
    node.sort less archives = node.sort less' archives

/-- So are the comparisons of a sort. -/
theorem Agree.modTimeBefore (h : Agree archives s t) :
    ∀ a ∈ archives, ∀ b ∈ archives, modTimeBefore s a b = modTimeBefore t a b := by
  intro a ha b hb
  unfold Retention.modTimeBefore FS.stat
  rw [(h a ha).1, (h b hb).1]

/-- So does the sort with its comparison. -/
theorem Agree.sortByTime {node : Node} (hsort : LocalSort node) (h : Agree archives s t) :
    node.sortByTime s archives = node.sortByTime t archives := by
  have hany : archives.any (fun archive => (s.stat archive).isNone)
      = archives.any (fun archive => (t.stat archive).isNone) := by
    rw [Bool.eq_iff_iff, List.any_eq_true, List.any_eq_true]
    refine exists_congr (fun archive => and_congr_right (fun ha => ?_))
    unfold FS.stat
    rw [(h archive ha).1]
  unfold Node.sortByTime comparisonPanics
  rw [hany, hsort _ _ _ h.modTimeBefore]

theorem deletedBySize_congr (h : Agree archives s t) (maxTotalSize : Quantity)
    (hsub : toDelete ⊆ archives) (total : Quantity) :
    deletedBySize maxTotalSize (archiveSize s) toDelete total
      = deletedBySize maxTotalSize (archiveSize t) toDelete total := by
  induction toDelete generalizing total with
  | nil => rfl
  | cons archive rest ih =>
    obtain ⟨harchive, hrest⟩ := List.cons_subset.mp hsub
    unfold deletedBySize
    dsimp only
    rw [h.archiveSize harchive, ih hrest]

/-- The archives that are removed before the second sort. -/
theorem isArchive_of_removed (policy : Policy) (s : FS)
    (harch : ∀ archive ∈ archives, IsArchive archive) :
    ∀ archive ∈ tooLarge policy s archives ++ (byCount node policy archives s).1,
      IsArchive archive := by
  intro archive ha
  rcases List.mem_append.mp ha with ha | ha
  · exact harch archive (List.filter_subset_self _ ha)
  · exact harch archive (List.filter_subset_self _ ((byCount_perm node policy archives s).subset
      ((byCount_sublist node policy archives s).subset ha)))

theorem Agree.countedTotal (h : Agree archives s t) (policy : Policy) :
    countedTotal policy archives s = countedTotal policy archives t := by
  have hcounted : Agree (Retention.counted policy s archives) s t :=
    h.subset (List.filter_subset_self _)
  unfold Retention.countedTotal
  rw [← h.counted, hcounted.addSizes]

section Congr
variable {node} (hsort : LocalSort node) {policy : Policy} {archives : List String} {s t : FS}
  (harch : ∀ archive ∈ archives, IsArchive archive) (h : Agree archives s t)
include hsort harch h

/-- And the two rotations. -/
theorem byCount_congr : byCount node policy archives s = byCount node policy archives t := by
  have hcandidates : Agree (candidates policy s archives) s t :=
    h.subset (List.filter_subset_self _)
  have hlarge : ∀ archive ∈ tooLarge policy s archives, IsArchive archive :=
    fun archive ha => harch archive (List.filter_subset_self _ ha)
  have hsorted := hsort _ _ _ (hcandidates.unlinkAll hlarge).modTimeBefore
  unfold byCount
  rw [← h.counted, ← h.candidates, ← h.tooLarge, hsorted]

theorem secondSort_congr :
    secondSort node policy archives s = secondSort node policy archives t := by
  have hslice : Agree (byCount node policy archives s).2 s t :=
    h.subset (fun archive ha =>
      List.filter_subset_self _ ((byCount_perm node policy archives s).subset ha))
  have hremoved := isArchive_of_removed node policy s harch
  have hsorted := (hslice.unlinkAll hremoved).sortByTime hsort
  unfold secondSort
  rw [hsorted, byCount_congr hsort harch h, h.tooLarge]

/-- **The removals depend on the archives given and on their sizes, ages and markers.** -/
theorem limitRemovals_congr :
    limitRemovals node policy archives s = limitRemovals node policy archives t := by
  have hcounted : Agree (counted policy s archives) s t := h.subset (List.filter_subset_self _)
  have hsize : bySize node policy archives s = bySize node policy archives t := by
    unfold bySize
    rw [← h.countedTotal, ← secondSort_congr hsort harch h]
    split_ifs
    · cases hsecond : secondSort node policy archives s with
      | none => rfl
      | some sorted =>
        have hslice : Agree sorted s t := h.subset (fun archive ha => List.filter_subset_self _
          ((byCount_perm node policy archives s).subset
            ((Node.sortByTime_perm hsecond).subset ha)))
        show rotated policy archives s sorted = rotated policy archives t sorted
        unfold rotated
        rw [← h.countedTotal, ← h.counted, ← hcounted.sizesOf]
        exact deletedBySize_congr hslice _ (takeBySize_sublist _ _ _).subset _
    · rfl
  unfold limitRemovals
  rw [h.tooLarge, byCount_congr hsort harch h, hsize]

end Congr

/-- **When the limits panic.**  Archives are removed for being too many, and the total, of which
    they are not taken off, is over its limit: the second sort then compares with a missing
    file. -/
theorem limitsPanic_iff (harch : ∀ archive ∈ archives, IsArchive archive)
    (hin : ∀ archive ∈ archives, archive ∈ s) :
    limitsPanic node policy archives s = true ↔
      policy.maxTotalSize.cmp (countedTotal policy archives s) = .lt ∧
        policy.maxCheckpoints < (counted policy s archives).length ∧
        2 ≤ (candidates policy s archives).length := by
  set left := unlinkAll (tooLarge policy s archives ++ (byCount node policy archives s).1) s
    with hleft
  have hlength := (byCount_perm node policy archives s).length_eq
  have hnone : (secondSort node policy archives s).isNone = true ↔
      2 ≤ (candidates policy s archives).length ∧
        ∃ archive ∈ (byCount node policy archives s).2, archive ∉ left := by
    have hstat : ∀ archive, (left.stat archive).isNone = true ↔ archive ∉ left := by
      intro archive
      rw [← FS.stat_isSome, Option.isNone_iff_eq_none, Option.not_isSome_iff_eq_none]
    unfold secondSort Node.sortByTime comparisonPanics
    rw [← hleft, hlength]
    split_ifs with hpanics
    · simpa [hstat] using hpanics
    · simpa [hstat] using hpanics
  unfold limitsPanic
  rw [Bool.and_eq_true, decide_eq_true_iff, hnone]
  refine and_congr_right (fun _ => ?_)
  rw [and_comm]
  refine and_congr_left (fun htwo => ?_)
  by_cases hover : policy.maxCheckpoints < (counted policy s archives).length
  · -- the oldest candidate is taken, and it has no marker
    refine iff_of_true ?_ hover
    have htake : (byCount node policy archives s).1 = (byCount node policy archives s).2.take
        ((counted policy s archives).length - policy.maxCheckpoints).toNat := by
      unfold byCount
      rw [if_pos hover]
    obtain ⟨archive, rest, hslice⟩ := List.exists_cons_of_length_pos
      (show 0 < (byCount node policy archives s).2.length by omega)
    have hfirst : archive ∈ (byCount node policy archives s).1 := by
      obtain ⟨n, hn⟩ := Nat.exists_eq_succ_of_ne_zero (show
        ((counted policy s archives).length - policy.maxCheckpoints).toNat ≠ 0 by omega)
      rw [htake, hslice, hn, List.take_succ_cons]
      exact List.mem_cons_self
    have hmark := (List.mem_filter.mp ((byCount_perm node policy archives s).subset
      (hslice ▸ List.mem_cons_self : archive ∈ (byCount node policy archives s).2))).2
    refine ⟨archive, hslice ▸ List.mem_cons_self, fun hmem => ?_⟩
    have hkept := ((mem_unlinkAll (isArchive_of_removed node policy s harch)).mp hmem).2
      (List.mem_append_right _ hfirst)
    simp [marked, hkept] at hmark
  · have hcount : byCount node policy archives s = ([], candidates policy s archives) :=
      if_neg hover
    refine iff_of_false ?_ hover
    rintro ⟨archive, ha, hout⟩
    rw [hcount] at ha
    rw [hleft, hcount, List.append_nil] at hout
    exact hout (mem_unlinkAll_tooLarge harch hin ha)

end Exec

end CheckpointRestore.Retention
