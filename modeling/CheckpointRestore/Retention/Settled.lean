import CheckpointRestore.Retention.Lookup

namespace CheckpointRestore.Retention

open Go Interaction Pinning Resource

/-!
# Settled levels

A level that has been handled has nothing left to do, and stays so while archives are removed
for other levels.

* `Settled` — the limits hold of the archives, or markers hold all of them;
* `limits_of_settled` — then nothing is removed, and the level returns;
* `Settled.mono` — fewer archives stay settled;
* `settled_limitRemovals` — what the limits leave is settled, unless they panic.
-/

/-! ### The limits hold -/

/-- The limits leave the archives alone: no archive without a marker is too large, and unless
    markers hold all of them, they are not too many and not too large together. -/
structure Settled (policy : Policy) (archives : List String) (s : FS) : Prop where
  limit : policy.maxTotalSize.Representable
  fits : ∀ archive ∈ archives, marked s archive = false → oversize policy s archive = false
  count : (∃ archive ∈ archives, marked s archive = false) →
    (archives.length : ℤ) ≤ policy.maxCheckpoints
  total : (∃ archive ∈ archives, marked s archive = false) →
    policy.maxTotalSize.cmp (.new (totalSize s archives)) ≠ .lt

variable {policy : Policy} {archives : List String} {s : FS}

/-- The total the size path computes is the total, if an `int64` can hold it. -/
theorem countedTotal_eq (hfits : totalSize s archives < 2 ^ 63) :
    countedTotal policy archives s = .new (totalSize s (counted policy s archives)) := by
  have hle : totalSize s (counted policy s archives) ≤ totalSize s archives :=
    totalSize_le_of_sublist List.filter_sublist
  have hadd : addSizes s (counted policy s archives) (.new 0)
      = .new (0 + totalSize s (counted policy s archives)) := addSizes_new le_rfl (by omega)
  rw [countedTotal, hadd, zero_add]

/-- Settled archives have nothing to remove by themselves, and neither path finds a reason to
    start, or a candidate. -/
theorem Settled.idle (hfits : totalSize s archives < 2 ^ 63) (h : Settled policy archives s) :
    tooLarge policy s archives = [] ∧
      (¬ policy.maxCheckpoints < (counted policy s archives).length ∧
        ¬ policy.maxTotalSize.cmp (countedTotal policy archives s) = .lt ∨
      candidates policy s archives = []) := by
  have hlarge : tooLarge policy s archives = [] := by
    refine List.filter_eq_nil_iff.mpr (fun archive ha hcond => ?_)
    simp only [Bool.and_eq_true, Bool.not_eq_true'] at hcond
    rw [h.fits archive ha hcond.2] at hcond
    exact Bool.false_ne_true hcond.1
  have hcounted : counted policy s archives = archives := by
    refine List.filter_eq_self.mpr (fun archive ha => ?_)
    cases hmark : marked s archive with
    | false => simp [h.fits archive ha hmark]
    | true => simp
  refine ⟨hlarge, ?_⟩
  by_cases hfree : ∃ archive ∈ archives, marked s archive = false
  · rw [countedTotal_eq hfits, hcounted]
    exact Or.inl ⟨not_lt.mpr (h.count hfree), h.total hfree⟩
  · -- markers hold every archive
    refine Or.inr (List.filter_eq_nil_iff.mpr (fun archive ha hcond => hfree ⟨archive, ha, ?_⟩))
    simp only [Bool.and_eq_true, Bool.not_eq_true'] at hcond
    exact hcond.2

/-- A level of which the limits hold removes nothing, and does not panic. -/
theorem limits_of_settled (node : Node) (hfits : totalSize s archives < 2 ^ 63)
    (h : Settled policy archives s) :
    limitRemovals node policy archives s = [] ∧ limitsPanic node policy archives s = false := by
  obtain ⟨hlarge, hidle⟩ := h.idle hfits
  unfold limitRemovals limitsPanic
  rcases hidle with ⟨hcount, htotal⟩ | hnone
  · -- the limits hold: neither path is entered
    have hbyCount : byCount node policy archives s = ([], candidates policy s archives) :=
      if_neg hcount
    have hbySize : bySize node policy archives s = [] := if_neg htotal
    rw [hlarge, hbyCount, hbySize, decide_eq_false htotal]
    exact ⟨rfl, rfl⟩
  · -- the paths find no candidate, and there is nothing to compare
    have hslice : (byCount node policy archives s).2 = [] :=
      List.perm_nil.mp (hnone ▸ byCount_perm node policy archives s)
    have hcount : (byCount node policy archives s).1 = [] :=
      List.sublist_nil.mp (hslice ▸ byCount_sublist node policy archives s)
    have hsize : bySize node policy archives s = [] :=
      List.subset_nil.mp (hnone ▸ bySize_subset node policy archives s)
    have hsort : (secondSort node policy archives s).isNone = false := by
      rw [secondSort, hslice, sortByTime_of_mem node (by simp)]
      rfl
    rw [hlarge, hcount, hsize, hsort, Bool.and_false]
    exact ⟨rfl, rfl⟩

theorem totalSize_le_of_subperm {xs ys : List String} (h : xs.Subperm ys) :
    totalSize s xs ≤ totalSize s ys := by
  obtain ⟨zs, hperm, hsub⟩ := h
  rw [← totalSize_perm hperm]
  exact totalSize_le_of_sublist hsub

/-- A total that is not above the limit stays so when it shrinks. -/
theorem cmp_totalSize_mono {limit : Quantity} (hrep : limit.Representable) {m n : ℤ} (hm : 0 ≤ m)
    (hmn : m ≤ n) (h : limit.cmp (.new n) ≠ .lt) : limit.cmp (.new m) ≠ .lt := by
  rw [Ne, Quantity.cmp_new_lt_iff hrep hm]
  rw [Ne, Quantity.cmp_new_lt_iff hrep (hm.trans hmn)] at h
  exact fun hbelow => h (hbelow.mono hmn)

/-- **Fewer archives stay settled.** -/
theorem Settled.mono {fewer : List String} {t : FS} (h : Settled policy archives s)
    (hfewer : fewer.Subperm archives) (hagree : Agree fewer t s) : Settled policy fewer t := by
  have hfree : (∃ archive ∈ fewer, marked t archive = false) →
      ∃ archive ∈ archives, marked s archive = false := by
    rintro ⟨archive, ha, hmark⟩
    exact ⟨archive, hfewer.subset ha, (hagree.marked ha).symm.trans hmark⟩
  refine ⟨h.limit, fun archive ha hmark => ?_, fun hex => ?_, fun hex => ?_⟩
  · rw [hagree.oversize ha]
    exact h.fits archive (hfewer.subset ha) ((hagree.marked ha).symm.trans hmark)
  · have hlength := hfewer.length_le
    have hcount := h.count (hfree hex)
    omega
  · rw [hagree.totalSize]
    exact cmp_totalSize_mono h.limit (totalSize_nonneg s fewer) (totalSize_le_of_subperm hfewer)
      (h.total (hfree hex))

/-! ### The limits settle a level -/

/-- The loop over the sizes takes the whole slice, or as much as the excess. -/
theorem takeBySize_covers {sizes : AList (fun _ : String => ℤ)}
    (hsizes : ∀ archive ∈ archives, sizes.lookup archive = some (archiveSize s archive))
    (hfits : totalSize s archives < 2 ^ 63) {excess : ℤ} (hpos : 0 < excess)
    (hexcess : excess < 2 ^ 63) :
    takeBySize sizes archives excess = archives ∨
      excess ≤ totalSize s (takeBySize sizes archives excess) := by
  induction archives generalizing excess with
  | nil => exact Or.inl rfl
  | cons archive rest ih =>
    have hsize := archiveSize_nonneg s archive
    have hrest := totalSize_nonneg s rest
    rw [totalSize_cons] at hfits
    -- both numbers are in `[0, 2^63)`, so their difference does not wrap
    have hleft : wrap64 (excess - (sizes.lookup archive).getD 0)
        = excess - archiveSize s archive := by
      rw [hsizes archive List.mem_cons_self, Option.getD_some]
      exact wrap64_eq (by omega) (by omega)
    rw [takeBySize, hleft]
    split_ifs with hdone
    · refine Or.inr ?_
      rw [totalSize_cons]
      have hnil := totalSize_nonneg s []
      omega
    · rcases ih (fun a ha => hsizes a (List.mem_cons_of_mem _ ha)) (by omega)
        (by omega : 0 < excess - archiveSize s archive) (by omega) with hall | hcover
      · exact Or.inl (by rw [hall])
      · refine Or.inr ?_
        rw [totalSize_cons]
        omega

theorem deletedBySize_cons (maxTotalSize : Quantity) {archive : String} (rest : List String)
    {total : ℤ} (hsize : archiveSize s archive ≤ total) (htotal : total < 2 ^ 63) :
    deletedBySize maxTotalSize (archiveSize s) (archive :: rest) (.new total)
      = if maxTotalSize.cmp (.new (total - archiveSize s archive)) ≠ .lt then [archive]
        else archive :: deletedBySize maxTotalSize (archiveSize s) rest
          (.new (total - archiveSize s archive)) := by
  have hsub := Quantity.sub_new (archiveSize_nonneg s archive) hsize htotal
  rw [deletedBySize, hsub]

/-- `deleteBySize` gets to the end of its list, or stops within the limit. -/
theorem deletedBySize_stops (maxTotalSize : Quantity) (s : FS) {toDelete : List String}
    {total : ℤ} (hle : totalSize s toDelete ≤ total) (htotal : total < 2 ^ 63) :
    deletedBySize maxTotalSize (archiveSize s) toDelete (.new total) = toDelete ∨
      maxTotalSize.cmp (.new (total - totalSize s
        (deletedBySize maxTotalSize (archiveSize s) toDelete (.new total)))) ≠ .lt := by
  induction toDelete generalizing total with
  | nil => exact Or.inl rfl
  | cons archive rest ih =>
    rw [totalSize_cons] at hle
    have hsize := archiveSize_nonneg s archive
    have hrest := totalSize_nonneg s rest
    rw [deletedBySize_cons maxTotalSize rest (by omega) htotal]
    split_ifs with hdone
    · refine Or.inr ?_
      simpa [totalSize] using hdone
    · have hnext : totalSize s rest ≤ total - archiveSize s archive := by omega
      rcases ih hnext (by omega) with hall | hstop
      · exact Or.inl (by rw [hall])
      · refine Or.inr ?_
        rwa [totalSize_cons, ← sub_sub]

/-- The size path gets to the end of the slice, or stops within the limit. -/
theorem rotated_stops {sorted : List String} (hrep : policy.maxTotalSize.Representable)
    (hnonneg : 0 ≤ policy.maxTotalSize.asDec.1) (hfits : totalSize s archives < 2 ^ 63)
    (hperm : sorted.Perm (candidates policy s archives))
    (hover : policy.maxTotalSize.cmp (.new (totalSize s (counted policy s archives))) = .lt) :
    rotated policy archives s sorted = sorted ∨
      policy.maxTotalSize.cmp (.new (totalSize s (counted policy s archives)
        - totalSize s (rotated policy archives s sorted))) ≠ .lt := by
  unfold rotated
  rw [countedTotal_eq hfits]
  set total := totalSize s (counted policy s archives)
  set sizes := sizesOf s (counted policy s archives) ∅
  set excess := ((Quantity.new total).sub policy.maxTotalSize).value
  set toDelete := takeBySize sizes sorted excess
  set deleted := deletedBySize policy.maxTotalSize (archiveSize s) toDelete (.new total)
  have htotal₀ : 0 ≤ total := totalSize_nonneg s _
  have hsub : (candidates policy s archives).Sublist (counted policy s archives) :=
    candidates_subset_counted
  have hfits' : total < 2 ^ 63 := lt_of_le_of_lt (totalSize_le_of_sublist List.filter_sublist) hfits
  have hbelow := (Quantity.cmp_new_lt_iff hrep htotal₀).mp hover
  have htoDelete : totalSize s toDelete ≤ totalSize s sorted :=
    totalSize_le_of_sublist (takeBySize_sublist _ _ _)
  have hdeleted : totalSize s deleted ≤ totalSize s toDelete :=
    totalSize_le_of_sublist (deletedBySize_initial _ _ _ _).sublist
  have hsorted : totalSize s sorted ≤ total := by
    rw [totalSize_perm hperm]
    exact totalSize_le_of_sublist hsub
  have hstops : deleted = toDelete ∨
      policy.maxTotalSize.cmp (.new (total - totalSize s deleted)) ≠ .lt :=
    deletedBySize_stops policy.maxTotalSize s (by omega) hfits'
  rcases hstops with hall | hstop
  · -- what was deleted makes up the excess, or there was nothing else to delete
    obtain ⟨-, hpos, hexcess⟩ := Quantity.excess_covers hrep hnonneg hbelow hfits'
    have hlookup : ∀ archive ∈ sorted, sizes.lookup archive = some (archiveSize s archive) :=
      fun archive ha => lookup_sizesOf (hsub.subset (hperm.subset ha))
    have hcovers : toDelete = sorted ∨ excess ≤ totalSize s toDelete :=
      takeBySize_covers hlookup (by omega) hpos hexcess
    rcases hcovers with heverything | hcover
    · exact Or.inl (hall.trans heverything)
    · refine Or.inr ?_
      rw [Ne, Quantity.cmp_new_lt_iff hrep (by omega)]
      refine Quantity.not_below_of_excess hrep hnonneg hbelow hfits' ?_
      rw [hall]
      exact hcover
  · exact Or.inr hstop

theorem rotated_sublist (policy : Policy) (archives : List String) (s : FS)
    (sorted : List String) : (rotated policy archives s sorted).Sublist sorted :=
  (deletedBySize_initial _ _ _ _).sublist.trans (takeBySize_sublist _ _ _)

section Limits
variable (node : Node) {policy : Policy} {archives fewer : List String} {s : FS}

/-- Archives apart from one another are no more and no larger than those they come from. -/
theorem append_subperm {xs ys zs : List String} (hx : xs.Nodup) (hy : ys.Nodup)
    (hdisjoint : ∀ archive ∈ xs, archive ∉ ys) (hxz : xs ⊆ zs) (hyz : ys ⊆ zs) :
    (xs ++ ys).Subperm zs := by
  have hnodup : (xs ++ ys).Nodup := List.nodup_append'.mpr ⟨hx, hy, hdisjoint⟩
  exact List.subperm_of_subset hnodup (List.append_subset.mpr ⟨hxz, hyz⟩)

/-- What the limits leave counts against them. -/
theorem mem_counted_of_left (hleft : ∀ archive ∈ fewer, archive ∈ archives ∧
    archive ∉ limitRemovals node policy archives s) : fewer ⊆ counted policy s archives := by
  intro archive ha
  obtain ⟨hin, hout⟩ := hleft archive ha
  refine List.mem_filter.mpr ⟨hin, ?_⟩
  by_contra hno
  have hlarge : archive ∈ tooLarge policy s archives :=
    List.mem_filter.mpr ⟨hin, by simpa using hno⟩
  exact hout (List.mem_append_left _ (List.mem_append_left _ hlarge))

/-- If an archive without a marker is left, the count path has reached its limit. -/
theorem length_le_of_left (hnodup : archives.Nodup) (hfewer : fewer.Nodup)
    (hleft : ∀ archive ∈ fewer, archive ∈ archives ∧
      archive ∉ limitRemovals node policy archives s)
    (hfree : ∃ archive ∈ fewer, archive ∈ candidates policy s archives) :
    (fewer.length : ℤ) ≤ policy.maxCheckpoints := by
  have hcounted := mem_counted_of_left node hleft
  by_cases hover : policy.maxCheckpoints < (counted policy s archives).length
  · set excess := ((counted policy s archives).length - policy.maxCheckpoints).toNat
    set sorted := node.sort (modTimeBefore (unlinkAll (tooLarge policy s archives) s))
      (candidates policy s archives)
    have hcount : (byCount node policy archives s).1 = sorted.take excess := by
      unfold byCount
      rw [if_pos hover]
    have hout : ∀ archive ∈ fewer, archive ∉ sorted.take excess := by
      intro archive ha htake
      rw [← hcount] at htake
      exact (hleft archive ha).2 (List.mem_append_left _ (List.mem_append_right _ htake))
    have hperm : sorted.Perm (candidates policy s archives) := node.sort_perm _ _
    -- the archive without a marker was not taken, so there was more to take than needed
    have hlength : (sorted.take excess).length = excess := by
      obtain ⟨archive, ha, hcandidate⟩ := hfree
      rw [List.length_take]
      by_contra hshort
      have hall : sorted.take excess = sorted := List.take_of_length_le (by omega)
      have hout' := hout archive ha
      rw [hall] at hout'
      exact hout' (hperm.symm.subset hcandidate)
    have hsub : (fewer ++ sorted.take excess).Subperm (counted policy s archives) := by
      have hsorted : sorted.Nodup := hperm.nodup_iff.mpr (hnodup.filter _)
      refine append_subperm hfewer ((List.take_sublist _ _).nodup hsorted) hout hcounted ?_
      exact fun archive ha =>
        candidates_subset_counted.subset (hperm.subset ((List.take_sublist _ _).subset ha))
    have hle := hsub.length_le
    rw [List.length_append, hlength] at hle
    omega
  · have hle := (List.subperm_of_subset hfewer hcounted).length_le
    omega

/-- If an archive without a marker is left, the size path has reached its limit. -/
theorem total_of_left (hrep : policy.maxTotalSize.Representable)
    (hnonneg : 0 ≤ policy.maxTotalSize.asDec.1) (hnodup : archives.Nodup) (hfewer : fewer.Nodup)
    (hfits : totalSize s archives < 2 ^ 63)
    (hreturns : limitsPanic node policy archives s = false)
    (hleft : ∀ archive ∈ fewer, archive ∈ archives ∧
      archive ∉ limitRemovals node policy archives s)
    (hfree : ∃ archive ∈ fewer, archive ∈ candidates policy s archives) :
    policy.maxTotalSize.cmp (.new (totalSize s fewer)) ≠ .lt := by
  have hcounted := mem_counted_of_left node hleft
  have hfewer₀ := totalSize_nonneg s fewer
  set total := totalSize s (counted policy s archives) with htotal
  have htotal₀ : 0 ≤ total := totalSize_nonneg s _
  by_cases hover : policy.maxTotalSize.cmp (.new total) = .lt
  · rw [htotal, ← countedTotal_eq hfits] at hover
    -- the level did not panic, so the slice was sorted
    obtain ⟨sorted, hsorted⟩ : ∃ sorted, secondSort node policy archives s = some sorted := by
      unfold limitsPanic at hreturns
      rw [decide_eq_true hover, Bool.true_and] at hreturns
      exact Option.isSome_iff_exists.mp (Option.isNone_eq_false_iff.mp hreturns)
    set deleted := rotated policy archives s sorted
    have hsize : bySize node policy archives s = deleted := by
      rw [bySize, if_pos hover, hsorted]
      rfl
    rw [countedTotal_eq hfits] at hover
    have hout : ∀ archive ∈ fewer, archive ∉ deleted := by
      intro archive ha hdeleted
      rw [← hsize] at hdeleted
      exact (hleft archive ha).2 (List.mem_append_right _ hdeleted)
    have hperm : sorted.Perm (candidates policy s archives) :=
      (Node.sortByTime_perm hsorted).trans (byCount_perm node policy archives s)
    have hsub : (candidates policy s archives).Sublist (counted policy s archives) :=
      candidates_subset_counted
    have hdeleted : deleted.Sublist sorted := rotated_sublist policy archives s sorted
    -- an archive without a marker is left, so the path has stopped within the limit
    have hstop : policy.maxTotalSize.cmp (.new (total - totalSize s deleted)) ≠ .lt := by
      rcases rotated_stops hrep hnonneg hfits hperm hover with hall | hstop
      · obtain ⟨archive, ha, hcandidate⟩ := hfree
        refine absurd (hperm.symm.subset hcandidate) ?_
        rw [← hall]
        exact hout archive ha
      · exact hstop
    have hsum : totalSize s fewer + totalSize s deleted ≤ total := by
      have hnodup' : sorted.Nodup := hperm.nodup_iff.mpr (hnodup.filter _)
      have hboth := append_subperm hfewer (hdeleted.nodup hnodup') hout hcounted
        (fun archive ha => hsub.subset (hperm.subset (hdeleted.subset ha)))
      have hle := totalSize_le_of_subperm (s := s) hboth
      rwa [totalSize, List.map_append, List.sum_append] at hle
    exact cmp_totalSize_mono hrep hfewer₀ (by omega) hstop
  · exact cmp_totalSize_mono hrep hfewer₀
      (totalSize_le_of_subperm (List.subperm_of_subset hfewer hcounted)) hover

/-- **What the limits leave is settled**, unless they panic. -/
theorem settled_limitRemovals (hrep : policy.maxTotalSize.Representable)
    (hnonneg : 0 ≤ policy.maxTotalSize.asDec.1) (hnodup : archives.Nodup) (hfewer : fewer.Nodup)
    (hfits : totalSize s archives < 2 ^ 63)
    (hreturns : limitsPanic node policy archives s = false)
    (hleft : ∀ archive ∈ fewer, archive ∈ archives ∧
      archive ∉ limitRemovals node policy archives s) : Settled policy fewer s := by
  have hcounted := mem_counted_of_left node hleft
  have hlarge : ∀ archive ∈ fewer, marked s archive = false →
      oversize policy s archive = false := by
    intro archive ha hmark
    have hcond := (List.mem_filter.mp (hcounted ha)).2
    simpa [hmark] using hcond
  have hcandidate : (∃ archive ∈ fewer, marked s archive = false) →
      ∃ archive ∈ fewer, archive ∈ candidates policy s archives := by
    rintro ⟨archive, ha, hmark⟩
    refine ⟨archive, ha, List.mem_filter.mpr ⟨(hleft archive ha).1, ?_⟩⟩
    simp [hmark, hlarge archive ha hmark]
  refine ⟨hrep, hlarge, fun hfree => ?_, fun hfree => ?_⟩
  · exact length_le_of_left node hnodup hfewer hleft (hcandidate hfree)
  · exact total_of_left node hrep hnonneg hnodup hfewer hfits hreturns hleft (hcandidate hfree)

end Limits

/-! ### Sizes that add up -/

/-- The archives of a directory. -/
def archivesOf (s : FS) : List String := s.keys.filter (fun path => decide (IsArchive path))

/-- The sizes of the archives add up to an `int64`. -/
def SizesFit (s : FS) : Prop := totalSize s (archivesOf s) < 2 ^ 63

instance (s : FS) : Decidable (SizesFit s) := inferInstanceAs (Decidable (_ < _))

theorem mem_archivesOf {path : String} : path ∈ archivesOf s ↔ path ∈ s ∧ IsArchive path := by
  rw [archivesOf, List.mem_filter, decide_eq_true_iff, AList.mem_keys]

theorem SizesFit.of_subset (h : SizesFit s) (hnodup : archives.Nodup)
    (hin : ∀ archive ∈ archives, archive ∈ s ∧ IsArchive archive) :
    totalSize s archives < 2 ^ 63 := by
  have hsub : archives ⊆ archivesOf s := fun archive ha => mem_archivesOf.mpr (hin archive ha)
  exact lt_of_le_of_lt (totalSize_le_of_subperm (List.subperm_of_subset hnodup hsub)) h

theorem SizesFit.of_filtered (h : SizesFit s) (node : Node) (policies : PolicySnapshot)
    (details : CheckpointDetails) (level : Level) :
    totalSize s (filtered node policies details level s) < 2 ^ 63 :=
  h.of_subset (filtered_nodup node policies details level s)
    (fun _ ha => ⟨((mem_filtered node).mp ha).2.1, isArchive_of_mem_filtered node ha⟩)

theorem SizesFit.pruned {t : FS} (h : SizesFit s) (hpruned : Pruned s t) : SizesFit t := by
  have hin : ∀ archive ∈ archivesOf t, archive ∈ t := fun archive ha => (mem_archivesOf.mp ha).1
  unfold SizesFit
  rw [(hpruned.agree hin).totalSize]
  refine h.of_subset (t.keys_nodup.filter _) (fun archive ha => ?_)
  exact ⟨hpruned.mem archive (hin archive ha), (mem_archivesOf.mp ha).2⟩

end CheckpointRestore.Retention
